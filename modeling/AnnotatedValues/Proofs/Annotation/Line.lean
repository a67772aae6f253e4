import AnnotatedValues.Annotation.Line
import AnnotatedValues.Annotation.Modifier
import AnnotatedValues.Proofs.Text.Lines

/-!
# What directives hold

All that a directive holds is taken from its line, and the names in it are made
of the characters of names.
-/

namespace AnnotatedValues.Annotation

open Text

/-! ## Literals and blocks -/

theorem eq_append_of_splitBehind? {quote : Char} {cs taken rest : List Char}
    (h : splitBehind? quote cs = some (taken, rest)) : cs = taken ++ rest := by
  induction cs generalizing taken with
  | nil => cases h
  | cons c cs ih =>
      rw [splitBehind?] at h
      split at h
      · cases h
        rfl
      · obtain ⟨⟨taken', rest'⟩, hsplit, hpair⟩ := Option.map_eq_some_iff.mp h
        cases hpair
        rw [ih hsplit]
        rfl

/-- A literal and what is behind it are the text. -/
theorem eq_append_of_takeLiteral? {cs literal rest : List Char}
    (h : takeLiteral? cs = some (literal, rest)) : cs = literal ++ rest := by
  cases cs with
  | nil => cases h
  | cons c cs =>
      rw [takeLiteral?] at h
      split at h
      · obtain ⟨⟨taken, rest'⟩, hsplit, hpair⟩ := Option.map_eq_some_iff.mp h
        cases hpair
        rw [eq_append_of_splitBehind? hsplit]
        rfl
      · split at h
        · exact eq_append_of_splitBalanced? h
        · split at h
          · cases h
          · cases h
            exact (List.takeWhile_append_dropWhile).symm

theorem subset_of_takeBraced? {cs block rest : List Char}
    (h : takeBraced? cs = some (block, rest)) : block ⊆ cs ∧ rest ⊆ cs := by
  unfold takeBraced? at h
  split at h
  · rename_i cs
    obtain ⟨⟨taken, rest'⟩, hsplit, hpair⟩ := Option.map_eq_some_iff.mp h
    cases hpair
    rw [eq_append_of_splitBalanced? hsplit]
    constructor
    · intro c hc
      exact List.mem_cons_of_mem _ (List.mem_append_left _ (List.dropLast_subset _ hc))
    · intro c hc
      exact List.mem_cons_of_mem _ (List.mem_append_right _ hc)
  · cases h

theorem subset_of_afterBlank? {cs rest : List Char} (h : afterBlank? cs = some rest) :
    rest ⊆ cs := by
  cases cs with
  | nil => cases h
  | cons c cs =>
      rw [afterBlank?, Option.ite_none_right_eq_some, Option.some.injEq] at h
      rw [← h.2]
      exact fun d hd => List.mem_cons_of_mem c ((List.dropWhile_suffix _).subset hd)

theorem blockFirst?_eq {cs block rest behind name literal text tail : List Char} {optional : Bool}
    (hblock : takeBraced? cs = some (block, rest)) (hblank : afterBlank? rest = some behind)
    (hname : takeName? behind = some (name, optional, '=' :: text))
    (hliteral : takeLiteral? text = some (literal, tail)) :
    blockFirst? cs = (description? tail).map (Member.mk name optional block literal) := by
  simp only [blockFirst?, hblock, hblank, hname, hliteral, Option.bind_eq_bind, Option.bind_some]
  cases description? tail <;> rfl

/-! ## Names and descriptions -/

theorem subset_of_takeName? {cs name rest : List Char} {optional : Bool}
    (h : takeName? cs = some (name, optional, rest)) :
    (∀ c ∈ name, isMemberChar c = true) ∧ rest ⊆ cs := by
  unfold takeName? at h
  split at h
  · rename_i cs
    split at h
    · rename_i c name' rest' htake hdrop
      cases h
      refine ⟨fun d hd => List.mem_takeWhile_imp (htake ▸ hd), fun d hd => ?_⟩
      exact List.mem_cons_of_mem _ ((List.dropWhile_suffix isMemberChar).subset
        (hdrop ▸ List.mem_cons_of_mem _ hd))
    · cases h
  · split at h
    · cases h
    · cases h
      exact ⟨fun d hd => List.mem_takeWhile_imp hd, (List.dropWhile_suffix _).subset⟩

theorem subset_of_description? {cs description : List Char} (h : description? cs = some description) :
    description ⊆ cs := by
  unfold description? at h
  split at h
  · cases h
    exact List.Subset.refl _
  · rename_i c cs
    have htrim : trim cs ⊆ c :: cs := fun d hd => List.mem_cons_of_mem c (mem_of_mem_trim hd)
    split at h
    · split at h
      · cases h
        exact List.nil_subset _
      · rename_i d rest hdash
        rw [hdash] at htrim
        split at h
        · cases h
          exact fun e he => htrim (List.mem_cons_of_mem _
            (List.mem_cons_of_mem _ ((List.dropWhile_suffix _).subset he)))
        · cases h
          exact htrim
      · cases h
        exact htrim
    · cases h

/-! ## Members and declarations -/

/-- A member's name is one, and the rest of it comes from a text. -/
structure Member.IsOf (m : Member) (cs : List Char) : Prop where
  name : ∀ c ∈ m.name, isMemberChar c = true
  block : m.block ⊆ cs
  default : m.default ⊆ cs
  description : m.description ⊆ cs

theorem isOf_of_blockFirst? {cs : List Char} {m : Member} (h : blockFirst? cs = some m) :
    m.IsOf cs := by
  simp only [blockFirst?, Option.bind_eq_bind, Option.bind_eq_some_iff] at h
  obtain ⟨⟨block, rest⟩, hbraced, behind, hblank, ⟨name, optional, tail⟩, hname, h⟩ := h
  obtain ⟨hblock, hrest⟩ := subset_of_takeBraced? hbraced
  have hbehind : behind ⊆ cs := List.Subset.trans (subset_of_afterBlank? hblank) hrest
  obtain ⟨hmember, htail⟩ := subset_of_takeName? hname
  dsimp only at h
  split at h
  · rename_i text
    obtain ⟨⟨default, tail⟩, hliteral, h⟩ := Option.bind_eq_some_iff.mp h
    obtain ⟨description, hdescription, h⟩ := Option.bind_eq_some_iff.mp h
    cases h
    have htext : text ⊆ cs := fun c hc => hbehind (htail (List.mem_cons_of_mem _ hc))
    rw [eq_append_of_takeLiteral? hliteral, List.append_subset] at htext
    exact ⟨hmember, hblock, htext.1,
      List.Subset.trans (subset_of_description? hdescription) htext.2⟩
  · obtain ⟨_, hnone, h⟩ := Option.bind_eq_some_iff.mp h
    cases hnone
    obtain ⟨description, hdescription, h⟩ := Option.bind_eq_some_iff.mp h
    cases h
    exact ⟨hmember, hblock, List.nil_subset _,
      List.Subset.trans (subset_of_description? hdescription) (List.Subset.trans htail hbehind)⟩

theorem isOf_of_nameFirst? {cs : List Char} {m : Member} (h : nameFirst? cs = some m) :
    m.IsOf cs := by
  simp only [nameFirst?, Option.bind_eq_bind, Option.bind_eq_some_iff] at h
  obtain ⟨⟨name, optional, rest⟩, hname, behind, hblank, ⟨block, tail⟩, hbraced, h⟩ := h
  obtain ⟨hmember, hrest⟩ := subset_of_takeName? hname
  have hbehind : behind ⊆ cs := List.Subset.trans (subset_of_afterBlank? hblank) hrest
  obtain ⟨hblock, htail⟩ := subset_of_takeBraced? hbraced
  obtain ⟨description, hdescription, hm⟩ := h
  cases hm
  exact ⟨hmember, List.Subset.trans hblock hbehind, List.nil_subset _,
    List.Subset.trans (subset_of_description? hdescription) (List.Subset.trans htail hbehind)⟩

theorem isOf_of_member? {cs : List Char} {m : Member} (h : member? cs = some m) : m.IsOf cs := by
  rcases Option.or_eq_some_iff.mp h with hblock | ⟨-, hname⟩
  · exact isOf_of_blockFirst? hblock
  · exact isOf_of_nameFirst? hname

theorem isMemberChar_of_isTypeChar {c : Char} (h : isTypeChar c = true) : isMemberChar c = true := by
  rcases (Bool.or_eq_true _ _).mp h with hword | hdash
  · simp [isMemberChar, hword]
  · simp [isMemberChar, hdash]

theorem subset_of_declaration? {cs block name description : List Char}
    (h : declaration? cs = some (block, name, description)) :
    (∀ c ∈ name, isMemberChar c = true) ∧ description ⊆ cs := by
  simp only [declaration?, Option.bind_eq_bind, Option.bind_eq_some_iff] at h
  obtain ⟨⟨inside, rest⟩, hbraced, behind, hblank, h⟩ := h
  have hbehind : behind ⊆ cs :=
    List.Subset.trans (subset_of_afterBlank? hblank) (subset_of_takeBraced? hbraced).2
  split at h
  · cases h
  · obtain ⟨text, htext, h⟩ := Option.bind_eq_some_iff.mp h
    cases h
    exact ⟨fun c hc => isMemberChar_of_isTypeChar (List.mem_takeWhile_imp hc),
      List.Subset.trans (subset_of_description? htext)
        (List.Subset.trans (List.dropWhile_suffix _).subset hbehind)⟩

/-! ## Directives -/

/-- The names of a directive are names, and what ends up in comments comes from the text. -/
def Directive.IsOf (cs : List Char) : Directive → Prop
  | .section _ | .value _ => True
  | .typedef name description | .enum _ name description =>
    (∀ c ∈ name, isMemberChar c = true) ∧ description ⊆ cs
  | .param m | .field m => m.IsOf cs

/-- What the text behind the word of a directive can be read as. -/
inductive Directive.Says (cs : List Char) : Directive → Prop where
  | «section» : Says cs (.section cs)
  | typedef {block name description : List Char}
      (h : declaration? cs = some (block, name, description)) : Says cs (.typedef name description)
  | enum {base name description : List Char}
      (h : declaration? cs = some (base, name, description)) : Says cs (.enum base name description)
  | value : Says cs (.value (cs.takeWhile fun c => !isBlank c))
  | param {m : Member} (h : member? cs = some m) : Says cs (.param m)
  | field {m : Member} (h : member? cs = some m) : Says cs (.field m)

theorem says_of_directive? {word cs : List Char} {d : Directive} (h : directive? word cs = some d) :
    d.Says cs := by
  unfold directive? at h
  split at h
  · rw [Option.ite_none_left_eq_some, Option.some.injEq] at h
    exact h.2 ▸ .section
  split at h
  · split at h
    · rename_i hdeclaration
      rw [Option.ite_none_right_eq_some, Option.some.injEq] at h
      exact h.2 ▸ .typedef hdeclaration
    · cases h
  split at h
  · obtain ⟨⟨base, name, description⟩, hdeclaration, rfl⟩ := Option.map_eq_some_iff.mp h
    exact .enum hdeclaration
  split at h
  · split at h
    · cases h
    · cases h
      exact .value
  split at h
  · obtain ⟨m, hm, rfl⟩ := Option.map_eq_some_iff.mp h
    exact .param hm
  split at h
  · obtain ⟨m, hm, rfl⟩ := Option.map_eq_some_iff.mp h
    exact .field hm
  · cases h

/-- A directive is read from a part of its line. -/
theorem Directive.exists_says_of_ofLine? {line : List Char} {d : Directive}
    (h : ofLine? line = some d) : ∃ cs ⊆ line, d.Says cs := by
  have htrim : trim line ⊆ line := fun c hc => mem_of_mem_trim hc
  unfold ofLine? at h
  split at h
  · rename_i cs hhash
    split at h
    · rename_i rest hblank
      refine ⟨_, fun c hc => htrim ?_, says_of_directive? h⟩
      have hrest : c ∈ '@' :: rest :=
        List.mem_cons_of_mem _ ((List.dropWhile_suffix _).subset (mem_of_mem_trim hc))
      rw [hhash]
      exact List.mem_cons_of_mem _
        ((List.dropWhile_suffix _).subset (subset_of_afterBlank? hblank hrest))
    · cases h
  · cases h

theorem Directive.Says.isOf {cs : List Char} {d : Directive} (h : d.Says cs) : d.IsOf cs := by
  cases h with
  | «section» => trivial
  | value => trivial
  | typedef h => exact subset_of_declaration? h
  | enum h => exact subset_of_declaration? h
  | param h => exact isOf_of_member? h
  | field h => exact isOf_of_member? h

theorem Member.IsOf.mono {m : Member} {cs ds : List Char} (h : m.IsOf cs) (hsubset : cs ⊆ ds) :
    m.IsOf ds :=
  ⟨h.name, List.Subset.trans h.block hsubset, List.Subset.trans h.default hsubset,
    List.Subset.trans h.description hsubset⟩

theorem Directive.IsOf.mono {d : Directive} {cs ds : List Char} (h : d.IsOf cs)
    (hsubset : cs ⊆ ds) : d.IsOf ds := by
  cases d with
  | «section» title => trivial
  | value token => trivial
  | typedef name description => exact ⟨h.1, List.Subset.trans h.2 hsubset⟩
  | enum base name description => exact ⟨h.1, List.Subset.trans h.2 hsubset⟩
  | param m => exact Member.IsOf.mono h hsubset
  | field m => exact Member.IsOf.mono h hsubset

/-- A directive holds what its line holds. -/
theorem Directive.isOf_of_ofLine? {line : List Char} {d : Directive} (h : ofLine? line = some d) :
    d.IsOf line := by
  obtain ⟨cs, hcs, hsays⟩ := exists_says_of_ofLine? h
  exact hsays.isOf.mono hcs

/-- The token of a value holds no blank. -/
theorem isBlank_of_ofLine?_value {line token : List Char}
    (h : Directive.ofLine? line = some (.value token)) : ∀ c ∈ token, isBlank c = false := by
  obtain ⟨cs, -, hsays⟩ := Directive.exists_says_of_ofLine? h
  cases hsays
  intro c hc
  simpa using List.mem_takeWhile_imp hc

/-! ## Defaults in blocks -/

/-- What has been read of the value of an attribute. -/
def AttributeState.value : AttributeState → List Char
  | .quoted _ read => read
  | _ => []

theorem subset_of_mem_attributesFrom {block : List Char} {state : AttributeState}
    {name text : List Char} (h : (name, text) ∈ attributesFrom state block) :
    text ⊆ state.value ++ block := by
  induction block generalizing state with
  | nil => cases h
  | cons d block ih =>
      have hkept : ∀ {next : AttributeState}, next.value ⊆ state.value ++ [d] →
          (name, text) ∈ attributesFrom next block → text ⊆ state.value ++ d :: block := by
        intro next hnext hmem c hc
        rcases List.mem_append.mp (ih hmem hc) with hvalue | hblock
        · rw [← List.singleton_append, ← List.append_assoc]
          exact List.mem_append_left _ (hnext hvalue)
        · exact List.mem_append_right _ (List.mem_cons_of_mem d hblock)
      cases state with
      | word read =>
          rw [attributesFrom] at h
          split at h
          · exact hkept (List.nil_subset _) h
          · split at h
            · exact hkept (List.nil_subset _) h
            · exact hkept (List.nil_subset _) h
      | colon name =>
          rw [attributesFrom] at h
          split at h
          · exact hkept (List.nil_subset _) h
          · exact hkept (List.nil_subset _) h
      | quoted name read =>
          rw [attributesFrom] at h
          split at h
          · rcases List.mem_cons.mp h with hhead | hrest
            · cases hhead
              exact fun c hc => List.mem_append_left _ (List.mem_reverse.mp hc)
            · exact hkept (List.nil_subset _) hrest
          · refine hkept (fun c hc => ?_) h
            rcases List.mem_cons.mp hc with rfl | hread
            · exact List.mem_append_right _ List.mem_cons_self
            · exact List.mem_append_left _ hread

theorem subset_of_behindDefault? {inWord : Bool} {cs rest : List Char}
    (h : behindDefault? inWord cs = some rest) : rest ⊆ cs := by
  induction cs generalizing inWord with
  | nil => cases h
  | cons c cs ih =>
      rw [behindDefault?] at h
      split at h
      · rename_i hbehind
        cases h
        split at hbehind
        · cases hbehind
        · split at hbehind
          · rename_i behind hlead
            split at hbehind
            · rename_i text hequals
              cases hbehind
              have htext : text ⊆ behind := fun d hd =>
                (List.dropWhile_suffix isBlank).subset
                  (show d ∈ trimStart behind from hequals ▸ List.mem_cons_of_mem _ hd)
              rw [eq_append_of_dropLead? hlead]
              exact List.Subset.trans (List.Subset.trans (List.dropWhile_suffix _).subset htext)
                (List.subset_append_right _ _)
            · cases hbehind
          · cases hbehind
      · exact fun d hd => List.mem_cons_of_mem c (ih h hd)

/-- The default in a block is taken from it. -/
theorem subset_of_blockDefault? {block text : List Char} (h : blockDefault? block = some text) :
    text ⊆ block := by
  unfold blockDefault? at h
  split at h
  · rename_i literal rest hliteral
    cases h
    obtain ⟨behind, hbehind, htake⟩ := Option.bind_eq_some_iff.mp hliteral
    have hsubset := subset_of_behindDefault? hbehind
    rw [eq_append_of_takeLiteral? htake, List.append_subset] at hsubset
    exact hsubset.1
  · unfold lastAttribute? at h
    obtain ⟨before, after, hattributes, -⟩ := List.lookup_eq_some_iff.mp h
    have hmem : ("default".toList, text) ∈ (attributesOf block).reverse := by
      rw [hattributes]
      exact List.mem_append_right _ List.mem_cons_self
    exact subset_of_mem_attributesFrom (List.mem_reverse.mp hmem)

end AnnotatedValues.Annotation
