import AnnotatedValues.Error
import AnnotatedValues.Proofs.TypeExpr.Written
import Mathlib.Data.Bool.AllAny

/-!
# The grammar of type expressions

A block is a type exactly if its part in front of the modifiers derives the type
from the grammar, in which blanks may stand around every part.  So the text of a
type is read as this type, alone or in front of modifiers.  What is left when
modifiers are cut off has none.
-/

namespace AnnotatedValues.TypeExpr

open Text Fallible

/-! ## Derivations -/

/-- What the grammar takes for the name of a type. -/
structure IsTypeName (cs : List Char) : Prop where
  ne_nil : cs ≠ []
  chars : ∀ c ∈ cs, isNameChar c = true

/-- The grammar `expr := ws ('*' expr | '[]' expr | 'map[' ws 'string' ws ']' expr | Name) ws`. -/
inductive Derives : List Char → TypeExpr → Prop where
  | pointer {before cs after : List Char} {t : TypeExpr} (hbefore : IsBlanks before)
      (hafter : IsBlanks after) (h : Derives cs t) :
      Derives (before ++ '*' :: cs ++ after) (.pointer t)
  | array {before cs after : List Char} {t : TypeExpr} (hbefore : IsBlanks before)
      (hafter : IsBlanks after) (h : Derives cs t) :
      Derives (before ++ '[' :: ']' :: cs ++ after) (.array t)
  | map {before left right cs after : List Char} {t : TypeExpr} (hbefore : IsBlanks before)
      (hafter : IsBlanks after) (hleft : IsBlanks left) (hright : IsBlanks right)
      (h : Derives cs t) :
      Derives (before ++ ("map[".toList ++ (left ++ "string".toList ++ right ++ ']' :: cs)) ++ after)
        (.map t)
  | name {before cs after : List Char} (hbefore : IsBlanks before) (hafter : IsBlanks after)
      (h : IsTypeName cs) : Derives (before ++ cs ++ after) (.named (String.ofList cs))

namespace Derives

variable {cs : List Char} {t : TypeExpr}

theorem cons_blank {c : Char} (hc : isBlank c = true) (h : Derives cs t) : Derives (c :: cs) t := by
  cases h with
  | pointer hbefore hafter h => exact .pointer (isBlanks_cons hc hbefore) hafter h
  | array hbefore hafter h => exact .array (isBlanks_cons hc hbefore) hafter h
  | map hbefore hafter hleft hright h => exact .map (isBlanks_cons hc hbefore) hafter hleft hright h
  | name hbefore hafter h => exact .name (isBlanks_cons hc hbefore) hafter h

theorem append_blanks {blanks : List Char} (hblanks : IsBlanks blanks) (h : Derives cs t) :
    Derives (cs ++ blanks) t := by
  cases h with
  | pointer hbefore hafter h =>
      rw [List.append_assoc]
      exact .pointer hbefore (hafter.append hblanks) h
  | array hbefore hafter h =>
      rw [List.append_assoc]
      exact .array hbefore (hafter.append hblanks) h
  | map hbefore hafter hleft hright h =>
      rw [List.append_assoc]
      exact .map hbefore (hafter.append hblanks) hleft hright h
  | name hbefore hafter h =>
      rw [List.append_assoc]
      exact .name hbefore (hafter.append hblanks) h

end Derives

theorem derives_of_written {cs : List Char} {t : TypeExpr} (h : Written cs t) : Derives cs t := by
  induction h with
  | blank hc _ ih => exact ih.cons_blank hc
  | pointer _ ih =>
      rw [← List.append_nil ('*' :: _)]
      exact .pointer isBlanks_nil isBlanks_nil ih
  | array _ ih =>
      rw [← List.append_nil ('[' :: _)]
      exact .array isBlanks_nil isBlanks_nil ih
  | @map key cs t hkey _ ih =>
      obtain ⟨left, right, hleft, hright, hsplit⟩ := exists_append_trim_append key
      rw [hkey] at hsplit
      rw [hsplit, ← List.append_nil ("map[".toList ++ _)]
      exact .map isBlanks_nil isBlanks_nil hleft hright ih
  | name hcs hname =>
      have hderives := Derives.name isBlanks_nil isBlanks_nil ⟨hcs, hname⟩
      rwa [List.append_nil] at hderives

theorem Written.blanks_append {blanks cs : List Char} {t : TypeExpr} (hblanks : IsBlanks blanks)
    (h : Written cs t) : Written (blanks ++ cs) t := by
  induction blanks with
  | nil => exact h
  | cons c blanks ih =>
      obtain ⟨hc, hrest⟩ := List.forall_mem_cons.mp hblanks
      exact .blank hc (ih hrest)

/-- The parser has its text without the blanks at the end. -/
theorem written_of_derives {cs : List Char} {t : TypeExpr} (h : Derives cs t) :
    Written (trimEnd cs) t := by
  induction h with
  | pointer hbefore hafter _ ih =>
      rw [trimEnd_append_blanks hafter, trimEnd_append_cons rfl]
      exact (Written.pointer ih).blanks_append hbefore
  | @array before cs after t hbefore hafter _ ih =>
      have hbrackets : before ++ '[' :: ']' :: cs = (before ++ ['[']) ++ ']' :: cs := by simp
      rw [trimEnd_append_blanks hafter, hbrackets, trimEnd_append_cons rfl, List.append_assoc]
      exact (Written.array ih).blanks_append hbefore
  | @map before left right cs after t hbefore hafter hleft hright _ ih =>
      have hstring : Trimmed "string".toList := trim_eq_self_iff.mp rfl
      have hkey := hstring.trim_between (by decide) hleft hright
      rw [trimEnd_append_blanks hafter, ← List.append_assoc "map[".toList, ← List.append_assoc before,
        trimEnd_append_cons rfl, List.append_assoc, List.append_assoc]
      exact (Written.map hkey ih).blanks_append hbefore
  | @name before cs after hbefore hafter h =>
      have hlast : ∀ c ∈ (before ++ cs).getLast?, isBlank c = false := by
        rw [List.getLast?_append_of_ne_nil _ h.ne_nil]
        exact fun c hc => not_isBlank_of_isNameChar (h.chars c (List.mem_of_mem_getLast? hc))
      rw [trimEnd_append_blanks hafter, trimEnd_eq_self hlast]
      exact (Written.name h.ne_nil h.chars).blanks_append hbefore

theorem derives_iff {cs : List Char} {t : TypeExpr} : Derives cs t ↔ Written (trimEnd cs) t := by
  refine ⟨written_of_derives, fun h => ?_⟩
  obtain ⟨after, hafter, hsplit⟩ := exists_trimEnd_append cs
  rw [hsplit]
  exact (derives_of_written h).append_blanks hafter

/-- A text derives one type at most. -/
theorem Derives.unique {cs : List Char} {t u : TypeExpr} (ht : Derives cs t) (hu : Derives cs u) :
    t = u := by
  have hsame := (parseFrom_eq_ok_of_written (written_of_derives ht)).symm.trans
    (parseFrom_eq_ok_of_written (written_of_derives hu))
  exact Except.ok.inj hsame

/-! ## Cutting modifiers off -/

/-- Blanks, the name of a modifier, and a colon or an equals sign behind more blanks if there are
any; what follows does not count. -/
inductive IsModifier : List Char → Prop where
  | intro {before word between : List Char} {sign : Char} (rest : List Char) (hne : before ≠ [])
      (hbefore : IsBlanks before) (hword : word ∈ ["enum".toList, "default".toList])
      (hbetween : IsBlanks between) (hsign : sign ∈ [':', '=']) :
      IsModifier (before ++ (word ++ (between ++ sign :: rest)))

theorem not_isBlank_of_mem_signs {sign : Char} (h : sign ∈ [':', '=']) : isBlank sign = false := by
  rcases List.mem_pair.mp h with rfl | rfl <;> decide

theorem trimStart_blanks_append_sign {between : List Char} {sign : Char}
    (hbetween : IsBlanks between) (hsign : sign ∈ [':', '=']) (rest : List Char) :
    trimStart (between ++ sign :: rest) = sign :: rest := by
  rw [trimStart_blanks_append hbetween, trimStart_eq_self]
  exact fun c hc => Option.mem_some_iff.mp hc ▸ not_isBlank_of_mem_signs hsign

theorem startsModifier_iff {cs : List Char} : startsModifier cs = true ↔
    ∃ word ∈ ["enum".toList, "default".toList], ∃ between, IsBlanks between ∧
      ∃ sign ∈ [':', '='], ∃ rest, cs = word ++ (between ++ sign :: rest) := by
  constructor
  · intro h
    unfold startsModifier at h
    dsimp only at h
    split at h
    · rename_i sign tail hrest
      obtain ⟨rest, hlead, htrim⟩ := Option.map_eq_some_iff.mp hrest
      have hword : ∃ word ∈ ["enum".toList, "default".toList], cs = word ++ rest := by
        rcases Option.or_eq_some_iff.mp hlead with henum | ⟨-, hdefault⟩
        · exact ⟨_, List.mem_cons_self, eq_append_of_dropLead? henum⟩
        · exact ⟨_, List.mem_cons_of_mem _ List.mem_cons_self, eq_append_of_dropLead? hdefault⟩
      obtain ⟨word, hmem, rfl⟩ := hword
      refine ⟨word, hmem, rest.takeWhile isBlank, fun c => List.mem_takeWhile_imp, sign, ?_, tail, ?_⟩
      · simpa using h
      · rw [← htrim, trimStart, List.takeWhile_append_dropWhile]
    · cases h
  · rintro ⟨word, hword, between, hbetween, sign, hsign, rest, rfl⟩
    have hlead : (dropLead? "enum".toList (word ++ (between ++ sign :: rest))).or
        (dropLead? "default".toList (word ++ (between ++ sign :: rest))) =
          some (between ++ sign :: rest) := by
      rcases List.mem_cons.mp hword with rfl | hdefault
      · rw [dropLead?_append, Option.some_or]
      · rw [List.mem_singleton.mp hdefault, dropLead?_append]
        rfl
    unfold startsModifier
    dsimp only
    rw [hlead, Option.map_some, trimStart_blanks_append_sign hbetween hsign]
    simpa using hsign

theorem isModifier_cons_iff {c : Char} {cs : List Char} :
    IsModifier (c :: cs) ↔ isBlank c = true ∧ startsModifier (trimStart cs) = true := by
  have hwords : ∀ word ∈ ["enum".toList, "default".toList], ∀ tail, trimStart (word ++ tail) =
      word ++ tail := by
    intro word hword tail
    rcases List.mem_cons.mp hword with rfl | hdefault
    · exact trimStart_eq_self fun c hc => Option.mem_some_iff.mp hc ▸ rfl
    · rw [List.mem_singleton.mp hdefault]
      exact trimStart_eq_self fun c hc => Option.mem_some_iff.mp hc ▸ rfl
  constructor
  · intro h
    generalize htext : c :: cs = text at h
    cases h with
    | @intro before word between sign rest hne hbefore hword hbetween hsign =>
        obtain ⟨d, before, rfl⟩ := List.exists_cons_of_ne_nil hne
        rw [List.cons_append] at htext
        obtain ⟨rfl, rfl⟩ := List.cons.inj htext
        obtain ⟨hc, hblanks⟩ := List.forall_mem_cons.mp hbefore
        rw [trimStart_blanks_append hblanks, hwords word hword]
        exact ⟨hc, startsModifier_iff.mpr ⟨word, hword, between, hbetween, sign, hsign, rest, rfl⟩⟩
  · rintro ⟨hc, hstarts⟩
    obtain ⟨word, hword, between, hbetween, sign, hsign, rest, htrim⟩ := startsModifier_iff.mp hstarts
    have hbefore : IsBlanks (c :: cs.takeWhile isBlank) :=
      isBlanks_cons hc fun d => List.mem_takeWhile_imp
    have hmodifier := IsModifier.intro rest (List.cons_ne_nil c _) hbefore hword hbetween hsign
    rwa [← htrim, trimStart, List.cons_append, List.takeWhile_append_dropWhile] at hmodifier

namespace IsModifier

variable {cs : List Char}

theorem append (h : IsModifier cs) (tail : List Char) : IsModifier (cs ++ tail) := by
  cases h with
  | @intro before word between sign rest hne hbefore hword hbetween hsign =>
      have hmodifier := IsModifier.intro (rest ++ tail) hne hbefore hword hbetween hsign
      simpa only [List.append_assoc, List.cons_append] using hmodifier

theorem ne_nil (h : IsModifier cs) : cs ≠ [] := by
  cases h with
  | intro rest hne => exact List.append_ne_nil_of_left_ne_nil hne _

theorem exists_sign_mem (h : IsModifier cs) : ∃ sign ∈ [':', '='], sign ∈ cs := by
  cases h with
  | @intro before word between sign rest hne hbefore hword hbetween hsign =>
      exact ⟨sign, hsign, by simp⟩

/-- Blanks behind a modifier are no part of what makes it one. -/
theorem exists_trimEnd_append (h : IsModifier cs) (as : List Char) :
    ∃ modifier, IsModifier modifier ∧ trimEnd (as ++ cs) = as ++ modifier := by
  cases h with
  | @intro before word between sign rest hne hbefore hword hbetween hsign =>
      refine ⟨_, IsModifier.intro (trimEnd rest) hne hbefore hword hbetween hsign, ?_⟩
      have htrim := trimEnd_append_cons (not_isBlank_of_mem_signs hsign)
        (as ++ before ++ word ++ between) rest
      simpa only [List.append_assoc] using htrim

end IsModifier

/-- Nothing that is cut off stands in front of a modifier. -/
theorem cutModifiers_append_of_not_blank {cs : List Char} (h : ∀ c ∈ cs, isBlank c = false)
    (rest : List Char) : cutModifiers (cs ++ rest) = cs ++ cutModifiers rest := by
  induction cs with
  | nil => rfl
  | cons c cs ih =>
      obtain ⟨hc, hcs⟩ := List.forall_mem_cons.mp h
      rw [List.cons_append, cutModifiers, hc, Bool.false_and, if_neg Bool.false_ne_true, ih hcs]
      rfl

theorem cutModifiers_of_isModifier {cs : List Char} (h : IsModifier cs) : cutModifiers cs = [] := by
  obtain ⟨c, rest, rfl⟩ := List.exists_cons_of_ne_nil h.ne_nil
  obtain ⟨hc, hstarts⟩ := isModifier_cons_iff.mp h
  rw [cutModifiers, hc, hstarts]
  rfl

theorem cutModifiers_cons {c : Char} {cs : List Char} (h : ¬ IsModifier (c :: cs)) :
    cutModifiers (c :: cs) = c :: cutModifiers cs := by
  rw [isModifier_cons_iff, ← Bool.and_eq_true] at h
  rw [cutModifiers, if_neg h]

theorem cutModifiers_prefix (cs : List Char) : cutModifiers cs <+: cs := by
  induction cs with
  | nil => exact List.prefix_rfl
  | cons c cs ih =>
      by_cases h : IsModifier (c :: cs)
      · rw [cutModifiers_of_isModifier h]
        exact List.nil_prefix
      · rw [cutModifiers_cons h]
        exact List.cons_prefix_cons.mpr ⟨rfl, ih⟩

/-- A text in which no modifier starts. -/
def IsUnmodified (cs : List Char) : Prop := ∀ as bs, cs = as ++ bs → ¬ IsModifier bs

theorem isUnmodified_nil : IsUnmodified [] := by
  intro as bs h hmodifier
  exact hmodifier.ne_nil (List.append_eq_nil_iff.mp h.symm).2

theorem isUnmodified_cons_iff {c : Char} {cs : List Char} :
    IsUnmodified (c :: cs) ↔ ¬ IsModifier (c :: cs) ∧ IsUnmodified cs := by
  constructor
  · intro h
    exact ⟨h [] _ rfl, fun as bs hsplit => h (c :: as) bs (congrArg (List.cons c) hsplit)⟩
  · rintro ⟨hfirst, hrest⟩ as bs hsplit
    cases as with
    | nil =>
        rw [List.nil_append] at hsplit
        exact hsplit ▸ hfirst
    | cons a as => exact hrest as bs (List.cons.inj hsplit).2

/-- Parts of such a text are such texts: a modifier is one whatever follows it. -/
theorem IsUnmodified.mono {cs ds : List Char} (h : IsUnmodified cs) (hpart : ds <:+: cs) :
    IsUnmodified ds := by
  obtain ⟨before, after, rfl⟩ := hpart
  rintro as bs rfl hmodifier
  exact h (before ++ as) (bs ++ after) (by simp only [List.append_assoc]) (hmodifier.append after)

theorem cutModifiers_eq_self_of_isUnmodified {cs : List Char} (h : IsUnmodified cs) :
    cutModifiers cs = cs := by
  induction cs with
  | nil => rfl
  | cons c cs ih =>
      obtain ⟨hfirst, hrest⟩ := isUnmodified_cons_iff.mp h
      rw [cutModifiers_cons hfirst, ih hrest]

theorem isUnmodified_cutModifiers (cs : List Char) : IsUnmodified (cutModifiers cs) := by
  induction cs with
  | nil => exact isUnmodified_nil
  | cons c cs ih =>
      by_cases h : IsModifier (c :: cs)
      · rw [cutModifiers_of_isModifier h]
        exact isUnmodified_nil
      · rw [cutModifiers_cons h, isUnmodified_cons_iff]
        obtain ⟨rest, hrest⟩ := cutModifiers_prefix cs
        refine ⟨fun hmodifier => h ?_, ih⟩
        rw [← hrest]
        exact hmodifier.append rest

/-! ## The type part of a block -/

theorem trim_stripModifiers (block : List Char) :
    trim (stripModifiers block) = stripModifiers block := trim_trim _

theorem parse_eq_ok_iff {block : List Char} {t : TypeExpr} :
    parse block = .ok t ↔ Derives (stripModifiers block) t := by
  have htrimmed := trim_eq_self_iff.mp (trim_stripModifiers block)
  rw [parse, parseFrom_eq_ok_iff, derives_iff, trimEnd_eq_self htrimmed.last]

theorem stripModifiers_stripModifiers (block : List Char) :
    stripModifiers (stripModifiers block) = stripModifiers block := by
  have hunmodified : IsUnmodified (stripModifiers block) := by
    obtain ⟨before, after, -, -, hsplit⟩ := exists_append_trim_append (cutModifiers (trim block))
    exact (isUnmodified_cutModifiers _).mono ⟨before, after, hsplit.symm⟩
  rw [stripModifiers, trim_stripModifiers, cutModifiers_eq_self_of_isUnmodified hunmodified,
    trim_stripModifiers]

/-! ## Texts of types -/

theorem not_isBlank_of_mem_chars {t : TypeExpr} (h : ∀ c ∈ t.base.toList, isNameChar c = true) :
    ∀ c ∈ t.chars, isBlank c = false := by
  have hmap : ∀ c ∈ "map[string]".toList, isBlank c = false :=
    List.all_iff_forall_prop.mp (by decide)
  induction t with
  | pointer inner ih => exact List.forall_mem_cons.mpr ⟨rfl, ih h⟩
  | array inner ih =>
      exact List.forall_mem_cons.mpr ⟨rfl, List.forall_mem_cons.mpr ⟨rfl, ih h⟩⟩
  | map inner ih => exact List.forall_mem_append.mpr ⟨hmap, ih h⟩
  | named name => exact fun c hc => not_isBlank_of_isNameChar (h c hc)

section

variable {t : TypeExpr} (hname : IsTypeName t.base.toList)

include hname in
theorem IsTypeName.written : Written t.chars t :=
  Written.chars (mt String.toList_eq_nil_iff.mpr hname.ne_nil) hname.chars

include hname in
theorem stripModifiers_chars : stripModifiers t.chars = t.chars := by
  have hblank := not_isBlank_of_mem_chars hname.chars
  have htrim := (trimmed_of_not_isBlank hblank).trim_eq
  have hcut := cutModifiers_append_of_not_blank hblank []
  rw [List.append_nil, cutModifiers, List.append_nil] at hcut
  rw [stripModifiers, htrim, hcut, htrim]

include hname in
/-- A type in front of a modifier is the type part of its block. -/
theorem stripModifiers_chars_append {modifier : List Char} (h : IsModifier modifier) :
    stripModifiers (t.chars ++ modifier) = t.chars := by
  have hblank := not_isBlank_of_mem_chars hname.chars
  have htrimmed := trimmed_of_not_isBlank hblank
  have hhead : ∀ c ∈ (t.chars ++ modifier).head?, isBlank c = false := by
    rw [List.head?_append_of_ne_nil _ hname.written.ne_nil]
    exact htrimmed.head
  obtain ⟨rest, hrest, hend⟩ := h.exists_trimEnd_append t.chars
  have htrim : trim (t.chars ++ modifier) = t.chars ++ rest := by
    rw [trim, trimStart_eq_self hhead, hend]
  rw [stripModifiers, htrim, cutModifiers_append_of_not_blank hblank,
    cutModifiers_of_isModifier hrest, List.append_nil, htrimmed.trim_eq]

end

theorem ofBlock_eq_ok_iff {block : String} {t : TypeExpr} :
    ofBlock block = .ok t ↔ Derives (stripModifiers block.toList) t := by
  rw [ofBlock, mapError_eq_ok_iff, parse_eq_ok_iff]

/-- A block is a type exactly if its type part derives this type; the text of a type is read as the
type, alone and in front of a modifier; and the type part of a block is its own type part. -/
theorem ofBlock_exact :
    (∀ (block : String) (t : TypeExpr),
      ofBlock block = .ok t ↔ Derives (stripModifiers block.toList) t) ∧
    (∀ t : TypeExpr, IsTypeName t.base.toList → ofBlock t.text = .ok t ∧
      ∀ modifier : String, IsModifier modifier.toList → ofBlock (t.text ++ modifier) = .ok t) ∧
    ∀ block, stripModifiers (stripModifiers block) = stripModifiers block := by
  refine ⟨fun _ _ => ofBlock_eq_ok_iff, fun t hname => ⟨?_, fun modifier hmodifier => ?_⟩,
    stripModifiers_stripModifiers⟩
  · rw [ofBlock_eq_ok_iff, text, String.toList_ofList, stripModifiers_chars hname]
    exact derives_of_written hname.written
  · rw [ofBlock_eq_ok_iff, text, String.toList_append, String.toList_ofList,
      stripModifiers_chars_append hname hmodifier]
    exact derives_of_written hname.written

/-- A map of pointers. -/
def countMap : TypeExpr := .map (.pointer (.named "int32"))

/-- Choices behind a tab, with blanks around the colon. -/
def countChoices : String := "\tenum : \"1,2\" "

/-- It is read where blanks stand around its parts, and in front of choices. -/
theorem ofBlock_countMap : IsTypeName countMap.base.toList ∧ IsModifier countChoices.toList ∧
    ofBlock (countMap.text ++ countChoices) = .ok countMap ∧
    Derives (stripModifiers " map[ string ] * int32 default=5".toList) countMap := by
  have hname : IsTypeName countMap.base.toList := ⟨by decide, List.all_eq_true.mp (by decide)⟩
  have hmodifier : IsModifier (['\t'] ++ ("enum".toList ++ ([' '] ++ ':' :: " \"1,2\" ".toList))) :=
    .intro _ (by decide) (by decide) List.mem_cons_self (by decide) List.mem_cons_self
  exact ⟨hname, hmodifier, (ofBlock_exact.2.1 countMap hname).2 countChoices hmodifier,
    (ofBlock_exact.1 _ countMap).mp (by decide)⟩

end AnnotatedValues.TypeExpr
