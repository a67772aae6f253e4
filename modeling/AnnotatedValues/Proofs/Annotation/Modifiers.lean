import AnnotatedValues.Annotation.Modifier
import AnnotatedValues.Proofs.Annotation.Brackets
import AnnotatedValues.Proofs.TypeExpr.Grammar

/-!
# Blocks with modifiers

A block is written as a type, maybe a list of choices in quotes and maybe a
default behind an equals sign.  Each reader of a block finds its part of it and
passes over the others: the search for the end of the block, the choices, the
default, and the type.
-/

namespace AnnotatedValues.Annotation

open Text

/-! ## Brackets in types -/

/-- The brackets in a type are balanced. -/
theorem nested_of_written {cs : List Char} {t : TypeExpr} (h : TypeExpr.Written cs t) :
    Nested anyKind cs := by
  have hblank : ∀ c, isBlank c = true → isPlain c = true := fun _ => isPlain_of rfl
  have hname : ∀ c, TypeExpr.isNameChar c = true → isPlain c = true := fun _ => isPlain_of rfl
  have hword : ∀ c ∈ "map".toList ++ "string".toList, isPlain c = true :=
    List.all_eq_true.mp (by decide)
  induction h with
  | blank hc _ ih => exact .plain (hblank _ hc) ih
  | pointer _ ih => exact .plain rfl ih
  | array _ ih =>
      have hempty : Nested anyKind [] := .nil
      exact .bracketed rfl rfl rfl hempty ih
  | @map key cs t hkey _ ih =>
      have hsplit : "map[".toList ++ (key ++ ']' :: cs) =
          "map".toList ++ '[' :: (key ++ ']' :: cs) := rfl
      rw [hsplit]
      have hinside : ∀ c ∈ key, isPlain c = true := fun c hc =>
        (mem_trim_or_isBlank hc).elim (fun htrim => hword c (List.mem_append_right _ (hkey ▸ htrim)))
          (hblank c)
      exact .append (.of_plain fun c hc => hword c (List.mem_append_left _ hc))
        (.bracketed rfl rfl rfl (.of_plain hinside) ih)
  | name _ h => exact .of_plain fun c hc => hname c (h c hc)

/-! ## Choices -/

/-- A word stands in the text: no character of words is next to it. -/
def HoldsWord (word cs : List Char) : Prop :=
  ∃ before after, cs = before ++ word ++ after ∧ (∀ c ∈ before.getLast?, isWord c = false) ∧
    ∀ c ∈ after.head?, isWord c = false

theorem HoldsWord.isInfix {word cs : List Char} (h : HoldsWord word cs) : word <:+: cs := by
  obtain ⟨before, after, rfl, -, -⟩ := h
  exact List.infix_append before word after

/-- A choice as it is written in a list of choices in quotes. -/
structure IsChoice (choice : List Char) : Prop where
  ne_nil : choice ≠ []
  trim_eq : trim choice = choice
  quote : '"' ∉ choice
  comma : ',' ∉ choice
  escape : '\\' ∉ choice
  default : ¬ HoldsWord "default".toList choice

theorem choicesOf_joined {choices : List (List Char)} (hne : choices ≠ [])
    (h : ∀ choice ∈ choices, IsChoice choice) : choicesOf (joined [','] choices) = choices := by
  have hpieces := splitBy_joined hne fun choice hchoice => (h choice hchoice).comma
  have htrim : choices.map trim = choices :=
    List.map_congr_left (fun choice hchoice => (h choice hchoice).trim_eq) |>.trans (List.map_id _)
  rw [choicesOf, hpieces, htrim, List.filter_eq_self]
  exact fun choice hchoice => by simpa using (h choice hchoice).ne_nil

theorem attributesFrom_eq_nil {cs : List Char} (h : '"' ∉ cs) (state : AttributeState) :
    attributesFrom state cs = [] := by
  induction cs generalizing state with
  | nil => rfl
  | cons c cs ih =>
      rw [List.mem_cons, not_or] at h
      have hc : (c == '"') = false := by simpa using Ne.symm h.1
      cases state with
      | word read => simp [attributesFrom, ih h.2]
      | colon name => simp [attributesFrom, hc, ih h.2]
      | quoted name read => simp [attributesFrom, hc, ih h.2]

/-- What holds no colon has no attributes, and a blank behind it is where a word may begin. -/
theorem attributesFrom_append_blank {cs : List Char} (h : ':' ∉ cs) (read rest : List Char) :
    attributesFrom (.word read) (cs ++ ' ' :: rest) = attributesFrom (.word []) rest := by
  induction cs generalizing read with
  | nil => rfl
  | cons c cs ih =>
      rw [List.mem_cons, not_or] at h
      have hc : (c == ':') = false := by simpa using Ne.symm h.1
      rw [List.cons_append, attributesFrom, hc, ih h.2, ih h.2]
      simp

theorem attributesFrom_quoted {text : List Char} (h : '"' ∉ text) (name read rest : List Char) :
    attributesFrom (.quoted name read) (text ++ '"' :: rest) =
      (name.reverse, read.reverse ++ text) :: attributesFrom (.word []) rest := by
  induction text generalizing read with
  | nil => simp [attributesFrom]
  | cons c text ih =>
      rw [List.mem_cons, not_or] at h
      have hc : (c == '"') = false := by simpa using Ne.symm h.1
      rw [List.cons_append, attributesFrom, hc, if_neg Bool.false_ne_true, ih h.2]
      simp

/-! ## Defaults -/

theorem behindDefault?_cons {inWord : Bool} {c : Char} {cs : List Char}
    (h : ∀ rest, dropLead? "default".toList (c :: cs) = some rest →
      inWord = true ∨ (trimStart rest).head? ≠ some '=') :
    behindDefault? inWord (c :: cs) = behindDefault? (isWord c) cs := by
  rw [behindDefault?]
  split
  · rename_i rest heq
    split at heq
    · cases heq
    · rename_i hword
      split at heq
      · rename_i r hlead
        have hequals := (h r hlead).resolve_left hword
        split at heq
        · rename_i tail htail
          rw [htail] at hequals
          exact absurd rfl hequals
        · cases heq
      · cases heq
  · rfl

/-- The search for a default passes over a text in which `default` is always a part of another word
or not followed by an equals sign. -/
theorem behindDefault?_append {inWord : Bool} {cs : List Char} {c : Char} {rest : List Char}
    (hc : isWord c = false)
    (h : ∀ before after, cs = before ++ ("default".toList ++ after) →
      (before.getLast?.map isWord).getD inWord = true ∨
        (trimStart (after ++ c :: rest)).head? ≠ some '=') :
    behindDefault? inWord (cs ++ c :: rest) = behindDefault? false rest := by
  have hmem : c ∉ "default".toList := by
    intro hmem
    have hword : ∀ d ∈ "default".toList, isWord d = true := List.all_eq_true.mp (by decide)
    exact Bool.false_ne_true (hc.symm.trans (hword c hmem))
  induction cs generalizing inWord with
  | nil =>
      rw [List.nil_append, behindDefault?_cons, hc]
      intro r hr
      obtain ⟨after, hnil, -⟩ := eq_append_of_dropLead?_append [] hmem hr
      cases hnil
  | cons d cs ih =>
      rw [List.cons_append, behindDefault?_cons]
      · refine ih fun before after heq => ?_
        have hd := h (d :: before) after (by rw [heq]; rfl)
        cases before with
        | nil => exact hd
        | cons b before => rwa [List.getLast?_cons_cons] at hd
      · intro r hr
        obtain ⟨after, hafter, rfl⟩ := eq_append_of_dropLead?_append (d :: cs) hmem hr
        exact h [] after hafter

theorem behindDefault?_append_of_not_mem {inWord : Bool} {cs : List Char} {c : Char}
    {rest : List Char} (hcs : '=' ∉ cs) (hc : isWord c = false)
    (hrest : '=' ∉ (trimStart (c :: rest)).head?) :
    behindDefault? inWord (cs ++ c :: rest) = behindDefault? false rest := by
  refine behindDefault?_append hc fun before after heq => Or.inr fun hhead => ?_
  rcases mem_head?_trimStart_append hhead with hafter | hnext
  · exact hcs (heq ▸ List.mem_append_right _ (List.mem_append_right _ hafter))
  · exact hrest hnext

/-- A default is not given inside a word, nor where another word begins with it. -/
theorem behindDefault?_append_of_not_holdsWord {cs : List Char} {c : Char} {rest : List Char}
    (hcs : ¬ HoldsWord "default".toList cs) (hc : isWord c = false) :
    behindDefault? false (cs ++ c :: rest) = behindDefault? false rest := by
  refine behindDefault?_append hc fun before after heq => ?_
  by_contra hnot
  rw [not_or, not_not] at hnot
  obtain ⟨hbefore, hequals⟩ := hnot
  refine hcs ⟨before, after, by rw [heq, List.append_assoc], fun d hd => ?_, fun d hd => ?_⟩
  · rw [hd] at hbefore
    simpa using hbefore
  · cases after with
    | nil => cases hd
    | cons a after =>
        cases hd
        rw [List.cons_append, trimStart, List.dropWhile_cons] at hequals
        split at hequals
        · rename_i hblank
          exact Bool.eq_false_iff.mpr fun hword =>
            Bool.false_ne_true ((isBlank_of_isWord hword).symm.trans hblank)
        · cases hequals
          rfl

theorem behindDefault?_joined {choices : List (List Char)}
    (h : ∀ choice ∈ choices, IsChoice choice) (rest : List Char) :
    behindDefault? false (joined [','] choices ++ '"' :: rest) = behindDefault? false rest := by
  induction choices with
  | nil => exact behindDefault?_append_of_not_mem List.not_mem_nil rfl (by simp [trimStart, isBlank])
  | cons choice choices ih =>
      rw [List.forall_mem_cons] at h
      cases choices with
      | nil => exact behindDefault?_append_of_not_holdsWord h.1.default rfl
      | cons next choices =>
          rw [joined_cons _ _ (List.cons_ne_nil next choices), List.append_assoc, List.append_assoc,
            List.singleton_append, behindDefault?_append_of_not_holdsWord h.1.default rfl]
          exact ih h.2

theorem behindDefault?_eq_none {cs : List Char} (h : '=' ∉ cs) (inWord : Bool) :
    behindDefault? inWord cs = none := by
  induction cs generalizing inWord with
  | nil => rfl
  | cons c cs ih =>
      rw [behindDefault?_cons, ih fun hmem => h (List.mem_cons_of_mem c hmem)]
      intro rest hrest
      refine Or.inr fun hhead => h ?_
      rw [eq_append_of_dropLead? hrest]
      exact List.mem_append_right _ ((List.dropWhile_suffix _).subset (List.mem_of_mem_head? hhead))

/-- A character of a default without quotes and brackets. -/
def isBare (c : Char) : Bool := isPlain c && !isBlank c && c != '\''

theorem isBare_iff {c : Char} :
    isBare c = true ↔ isPlain c = true ∧ isBlank c = false ∧ c ≠ '\'' := by
  simp [isBare, and_assoc]

theorem takeLiteral?_append {default rest : List Char} (hne : default ≠ [])
    (h : ∀ c ∈ default, isBare c = true) (hrest : ∀ c ∈ rest.head?, isBlank c = true) :
    takeLiteral? (default ++ rest) = some (default, rest) := by
  have hspan : (default ++ rest).takeWhile (fun c => !isBlank c) = default ∧
      (default ++ rest).dropWhile (fun c => !isBlank c) = rest :=
    span_append (fun c hc => by rw [(isBare_iff.mp (h c hc)).2.1]; rfl)
      (fun c hc => by rw [hrest c hc]; rfl)
  obtain ⟨c, default, rfl⟩ := List.exists_cons_of_ne_nil hne
  obtain ⟨hplain, hblank, happly⟩ := isBare_iff.mp (h c List.mem_cons_self)
  simp only [isPlain, Bool.and_eq_true, Bool.not_eq_true', bne_iff_ne] at hplain
  obtain ⟨⟨hopening, -⟩, hquote⟩ := hplain
  rw [List.cons_append] at hspan ⊢
  rw [takeLiteral?, if_neg (by simp [hquote, happly]), hopening, hblank, hspan.1, hspan.2]
  rfl

/-! ## Whole blocks -/

/-- A list of choices as a modifier. -/
def restriction : List (List Char) → List Char
  | [] => []
  | choices => " enum:\"".toList ++ (joined [','] choices ++ ['"'])

/-- A default as a modifier. -/
def assignment : List Char → List Char
  | [] => []
  | default => " default=".toList ++ default

/-- The text of a block. -/
def blockText (type : List Char) (choices : List (List Char)) (default : List Char) : List Char :=
  type ++ (restriction choices ++ assignment default)

section

variable {cs default : List Char} {t : TypeExpr} {choices : List (List Char)}

theorem restriction_eq (hne : choices ≠ []) :
    restriction choices = " enum:\"".toList ++ (joined [','] choices ++ ['"']) := by
  cases choices with
  | nil => exact absurd rfl hne
  | cons => rfl

theorem assignment_eq (hne : default ≠ []) : assignment default = " default=".toList ++ default := by
  cases default with
  | nil => exact absurd rfl hne
  | cons => rfl

theorem not_mem_joined {c : Char} (hc : c ≠ ',') (h : ∀ choice ∈ choices, c ∉ choice) :
    c ∉ joined [','] choices := by
  intro hmem
  rcases mem_of_mem_joined hmem with hsep | ⟨choice, hchoice, hinside⟩
  · exact hc (List.mem_singleton.mp hsep)
  · exact h choice hchoice hinside

theorem not_mem_assignment {c : Char} (hc : c ∉ " default=".toList)
    (h : ∀ d ∈ default, isBare d = true) (hbare : isBare c = false) : c ∉ assignment default := by
  cases default with
  | nil => exact List.not_mem_nil
  | cons d default =>
      rw [assignment_eq (List.cons_ne_nil _ _), List.mem_append, not_or]
      exact ⟨hc, fun hmem => Bool.false_ne_true (hbare.symm.trans (h c hmem))⟩

variable (hcs : TypeExpr.Written cs t) (hchoices : ∀ choice ∈ choices, IsChoice choice)
  (hdefault : ∀ c ∈ default, isBare c = true)

include hchoices in
theorem nested_restriction : Nested anyKind (restriction choices) := by
  cases choices with
  | nil => exact .nil
  | cons choice choices =>
      have hquote := not_mem_joined (by decide) fun choice hchoice => (hchoices choice hchoice).quote
      have hescape := not_mem_joined (by decide) fun choice hchoice => (hchoices choice hchoice).escape
      rw [restriction_eq (List.cons_ne_nil _ _)]
      exact .append (a := " enum:".toList) (.of_plain (List.all_eq_true.mp (by decide)))
        (.quoted (.of_not_mem hquote hescape) .nil)

include hdefault in
theorem nested_assignment : Nested anyKind (assignment default) := by
  cases default with
  | nil => exact .nil
  | cons c default =>
      rw [assignment_eq (List.cons_ne_nil _ _)]
      exact .append (.of_plain (List.all_eq_true.mp (by decide)))
        (.of_plain fun d hd => (isBare_iff.mp (hdefault d hd)).1)

include hcs hchoices hdefault in
theorem nested_blockText : Nested anyKind (blockText cs choices default) :=
  (nested_of_written hcs).append
    ((nested_restriction hchoices).append (nested_assignment hdefault))

include hcs hchoices hdefault in
theorem attributesOf_blockText :
    attributesOf (blockText cs choices default) =
      if choices = [] then [] else [("enum".toList, joined [','] choices)] := by
  have hquote : '"' ∉ cs := hcs.not_mem rfl (by decide) (by decide)
  have hnone : '"' ∉ assignment default := not_mem_assignment (by decide) hdefault (by decide)
  split
  · rename_i hnil
    rw [hnil]
    refine attributesFrom_eq_nil ?_ _
    rw [blockText, List.mem_append, List.mem_append, not_or, not_or]
    exact ⟨hquote, List.not_mem_nil, hnone⟩
  · rename_i hne
    have hcolon : ':' ∉ cs := hcs.not_mem rfl (by decide) (by decide)
    have hinside := not_mem_joined (by decide) fun choice hchoice => (hchoices choice hchoice).quote
    have hblock : blockText cs choices default =
        cs ++ ' ' :: ("enum:\"".toList ++ (joined [','] choices ++ '"' :: assignment default)) := by
      rw [blockText, restriction_eq hne]
      simp
    rw [attributesOf, hblock, attributesFrom_append_blank hcolon]
    change attributesFrom (.quoted "enum".toList.reverse [])
      (joined [','] choices ++ '"' :: assignment default) = _
    rw [attributesFrom_quoted hinside, attributesFrom_eq_nil hnone, List.reverse_reverse]
    rfl

include hcs hchoices hdefault in
/-- The choices of a block are found. -/
theorem blockChoices_blockText : blockChoices (blockText cs choices default) = choices := by
  rw [blockChoices, lastAttribute?, attributesOf_blockText hcs hchoices hdefault]
  split
  · rename_i hnil
    exact hnil.symm
  · rename_i hne
    exact choicesOf_joined hne hchoices

include hcs hchoices in
theorem behindDefault?_restriction (hne : choices ≠ []) (rest : List Char) :
    behindDefault? false (cs ++ (restriction choices ++ rest)) = behindDefault? false rest := by
  have hblock : cs ++ (restriction choices ++ rest) =
      cs ++ ' ' :: ("enum:".toList ++ '"' :: (joined [','] choices ++ '"' :: rest)) := by
    rw [restriction_eq hne]
    simp
  have hequals : '=' ∉ cs := hcs.not_mem rfl (by decide) (by decide)
  have hspace : isWord ' ' = false := by decide
  have hquote : isWord '"' = false := by decide
  rw [hblock, behindDefault?_append_of_not_mem hequals hspace,
    behindDefault?_append_of_not_mem (by decide) hquote, behindDefault?_joined hchoices]
  · exact fun h => nomatch h
  · exact fun h => nomatch h

include hcs hchoices hdefault in
theorem behindDefault?_blockText :
    behindDefault? false (blockText cs choices default) =
      if default = [] then none else some default := by
  have hequals : '=' ∉ cs := hcs.not_mem rfl (by decide) (by decide)
  rw [blockText]
  cases default with
  | nil =>
      rw [if_pos rfl]
      by_cases hne : choices = []
      · rw [hne]
        exact behindDefault?_eq_none (by simpa [restriction, assignment] using hequals) false
      · exact behindDefault?_restriction hcs hchoices hne []
  | cons d default =>
      have hd := (isBare_iff.mp (hdefault d List.mem_cons_self)).2.1
      have hfound : behindDefault? false ("default=".toList ++ d :: default) = some (d :: default) := by
        change some (trimStart (d :: default)) = _
        rw [trimStart_eq_self (by simpa using hd)]
      have hnext : '=' ∉ (trimStart (' ' :: ("default=".toList ++ d :: default))).head? :=
        fun h => nomatch h
      have hblank : isWord ' ' = false := by decide
      rw [if_neg (List.cons_ne_nil _ _), assignment_eq (List.cons_ne_nil _ _)]
      by_cases hne : choices = []
      · rw [hne]
        exact (behindDefault?_append_of_not_mem hequals hblank hnext).trans hfound
      · rw [behindDefault?_restriction hcs hchoices hne]
        exact (behindDefault?_append_of_not_mem List.not_mem_nil hblank hnext).trans hfound

include hcs hchoices hdefault in
/-- The default of a block is found. -/
theorem blockDefault?_blockText :
    blockDefault? (blockText cs choices default) = if default = [] then none else some default := by
  rw [blockDefault?, behindDefault?_blockText hcs hchoices hdefault]
  by_cases hne : default = []
  · rw [if_pos hne]
    change lastAttribute? "default".toList _ = none
    rw [lastAttribute?, attributesOf_blockText hcs hchoices hdefault]
    split <;> rfl
  · have htake : takeLiteral? (default ++ []) = some (default, []) :=
      takeLiteral?_append hne hdefault nofun
    rw [List.append_nil] at htake
    rw [if_neg hne, Option.bind_some, htake]

/-! ## Types of blocks -/

theorem startsModifier_eq_false {text : List Char}
    (h : ∀ lead ∈ ["enum".toList, "default".toList], ∀ rest, dropLead? lead text = some rest →
      ∀ c ∈ (trimStart rest).head?, c ≠ ':' ∧ c ≠ '=') :
    TypeExpr.startsModifier text = false := by
  refine Bool.eq_false_iff.mpr fun hstarts => ?_
  obtain ⟨word, hword, between, hbetween, sign, hsign, rest, rfl⟩ :=
    TypeExpr.startsModifier_iff.mp hstarts
  have htrim := TypeExpr.trimStart_blanks_append_sign hbetween hsign rest
  obtain ⟨hcolon, hequals⟩ := h word hword _ (dropLead?_append word _) sign (by rw [htrim]; rfl)
  rcases List.mem_pair.mp hsign with rfl | rfl
  · exact hcolon rfl
  · exact hequals rfl

/-- A text without colons and equals signs is not cut. -/
theorem cutModifiers_eq_self (h : ∀ c ∈ cs, c ≠ ':' ∧ c ≠ '=') : TypeExpr.cutModifiers cs = cs := by
  refine TypeExpr.cutModifiers_eq_self_of_isUnmodified ?_
  rintro as bs rfl hmodifier
  obtain ⟨sign, hsign, hmem⟩ := hmodifier.exists_sign_mem
  obtain ⟨hcolon, hequals⟩ := h sign (List.mem_append_right as hmem)
  rcases List.mem_pair.mp hsign with rfl | rfl
  · exact hcolon rfl
  · exact hequals rfl

/-- A text is cut behind what holds no colons and equals signs. -/
theorem cutModifiers_append {rest : List Char} (h : ∀ c ∈ cs, c ≠ ':' ∧ c ≠ '=')
    (hlast : ∀ c ∈ cs.getLast?, isBlank c = false)
    (hrest : ∀ c ∈ (trimStart rest).head?, c ≠ ':' ∧ c ≠ '=') :
    TypeExpr.cutModifiers (cs ++ ' ' :: rest) = cs ++ TypeExpr.cutModifiers (' ' :: rest) := by
  induction cs with
  | nil => rfl
  | cons c cs ih =>
      rw [List.forall_mem_cons] at h
      have htail : ∀ d ∈ cs.getLast?, isBlank d = false := by
        cases cs with
        | nil => nofun
        | cons d cs => rwa [List.getLast?_cons_cons] at hlast
      have hmodifier : isBlank c = true →
          TypeExpr.startsModifier (trimStart (cs ++ ' ' :: rest)) = false := by
        intro hc
        have hne : cs ≠ [] := by
          rintro rfl
          exact Bool.false_ne_true ((hlast c rfl).symm.trans hc)
        rw [trimStart_append hne htail]
        refine startsModifier_eq_false fun lead hlead r hr d hd => ?_
        have hspace : ' ' ∉ lead := by
          have hleads : ∀ l ∈ ["enum".toList, "default".toList], ' ' ∉ l := by decide
          exact hleads lead hlead
        obtain ⟨after, hafter, rfl⟩ := eq_append_of_dropLead?_append (trimStart cs) hspace hr
        rcases mem_head?_trimStart_append hd with hinside | hnext
        · exact h.2 d ((List.dropWhile_suffix _).subset
            (show d ∈ trimStart cs from hafter ▸ List.mem_append_right _ hinside))
        · exact hrest d hnext
      have hkept : (isBlank c && TypeExpr.startsModifier (trimStart (cs ++ ' ' :: rest))) = false := by
        cases hc : isBlank c with
        | true => exact hmodifier hc
        | false => rfl
      rw [List.cons_append, TypeExpr.cutModifiers, hkept, ih h.2 htail, if_neg Bool.false_ne_true,
        List.cons_append]

include hcs hdefault in
theorem getLast?_blockText :
    ∀ c ∈ (blockText cs choices default).getLast?, isBlank c = false := by
  refine isBlank_getLast?_append hcs.getLast? (isBlank_getLast?_append ?_ ?_)
  · intro c hc
    cases choices with
    | nil => cases hc
    | cons choice choices =>
        rw [restriction_eq (List.cons_ne_nil _ _), ← List.append_assoc, List.getLast?_concat] at hc
        cases hc
        rfl
  · intro c hc
    cases default with
    | nil => cases hc
    | cons d default =>
        rw [assignment_eq (List.cons_ne_nil _ _),
          List.getLast?_append_of_ne_nil _ (List.cons_ne_nil _ _)] at hc
        exact (isBare_iff.mp (hdefault c (List.mem_of_mem_getLast? hc))).2.1

include hcs hdefault in
theorem trim_blockText :
    trim (blockText cs choices default) = blockText (trimStart cs) choices default := by
  have hstart : trimStart (blockText cs choices default) = blockText (trimStart cs) choices default :=
    trimStart_append hcs.ne_nil hcs.getLast? _
  rw [trim, hstart, trimEnd_eq_self (getLast?_blockText hcs.trimStart hdefault)]

include hcs in
theorem cutModifiers_blockText :
    TypeExpr.cutModifiers (blockText cs choices default) = cs := by
  have hmarks : ∀ c ∈ cs, c ≠ ':' ∧ c ≠ '=' := fun c hc =>
    ⟨fun h => hcs.not_mem rfl (by decide) (by decide) (h ▸ hc),
      fun h => hcs.not_mem rfl (by decide) (by decide) (h ▸ hc)⟩
  by_cases hchoices : choices = []
  · by_cases hdefault : default = []
    · rw [blockText, hchoices, hdefault, restriction, assignment, List.append_nil, List.append_nil,
        cutModifiers_eq_self hmarks]
    · rw [blockText, hchoices, assignment_eq hdefault]
      refine (cutModifiers_append hmarks hcs.getLast? fun c hc => ?_).trans (List.append_nil cs)
      cases hc
      decide
  · rw [blockText, restriction_eq hchoices]
    refine (cutModifiers_append hmarks hcs.getLast? fun c hc => ?_).trans (List.append_nil cs)
    cases hc
    decide

include hcs hdefault in
/-- The type of a block is found. -/
theorem parse_blockText : TypeExpr.parse (blockText cs choices default) = .ok t := by
  have htype := hcs.trimStart
  have htrim : trim (trimStart cs) = trimStart cs :=
    trim_eq_self_iff.mpr ⟨head?_trimStart cs, htype.getLast?⟩
  rw [TypeExpr.parse, TypeExpr.stripModifiers, trim_blockText hcs hdefault,
    cutModifiers_blockText htype, htrim, TypeExpr.parseFrom_eq_ok_iff]
  exact htype

end

end AnnotatedValues.Annotation
