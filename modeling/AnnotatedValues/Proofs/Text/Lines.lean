import AnnotatedValues.Text.Blank
import Mathlib.Data.List.DropRight

/-!
# Pieces and lines of a text

A text that is put together around a separator has the pieces of its parts.
Pieces hold no separator, and trimming takes from the ends only.
-/

namespace AnnotatedValues.Text

/-- The characters of a text that is written in parts; the kernel takes long to decode them. -/
theorem toList_append_eq {front back : String} {cs ds : List Char} (hfront : front.toList = cs)
    (hback : back.toList = ds) : (front ++ back).toList = cs ++ ds := by
  rw [String.toList_append, hfront, hback]

variable {p : Char → Bool} {c : Char} {cs : List Char}

/-! ## Pieces -/

theorem exists_splitBy (p : Char → Bool) (cs : List Char) :
    ∃ piece pieces, splitBy p cs = piece :: pieces :=
  List.exists_cons_of_ne_nil (splitBy_ne_nil p cs)

theorem splitBy_cons_of_pos (hc : p c = true) (cs : List Char) :
    splitBy p (c :: cs) = [] :: splitBy p cs := by
  obtain ⟨piece, pieces, h⟩ := exists_splitBy p cs
  simp only [splitBy, h, hc, if_true]

theorem splitBy_cons_of_neg (hc : p c = false) {piece : List Char} {pieces : List (List Char)}
    (h : splitBy p cs = piece :: pieces) : splitBy p (c :: cs) = (c :: piece) :: pieces := by
  simp only [splitBy, h, hc, Bool.false_eq_true, if_false]

/-- A text without a separator is its only piece. -/
theorem splitBy_eq_singleton (h : ∀ c ∈ cs, p c = false) : splitBy p cs = [cs] := by
  induction cs with
  | nil => rfl
  | cons c cs ih =>
      exact splitBy_cons_of_neg (h c List.mem_cons_self)
        (ih fun d hd => h d (List.mem_cons_of_mem c hd))

/-- The pieces around a separator are those before it and those behind it. -/
theorem splitBy_append (hc : p c = true) (before after : List Char) :
    splitBy p (before ++ c :: after) = splitBy p before ++ splitBy p after := by
  induction before with
  | nil => exact splitBy_cons_of_pos hc after
  | cons d before ih =>
      rw [List.cons_append]
      cases hd : p d with
      | true => rw [splitBy_cons_of_pos hd, splitBy_cons_of_pos hd, ih, List.cons_append]
      | false =>
          obtain ⟨piece, pieces, h⟩ := exists_splitBy p before
          rw [h, List.cons_append] at ih
          rw [splitBy_cons_of_neg hd h, splitBy_cons_of_neg hd ih, List.cons_append]

/-- The pieces hold all characters that are no separators. -/
theorem flatten_splitBy (p : Char → Bool) (cs : List Char) :
    (splitBy p cs).flatten = cs.filter fun c => !p c := by
  induction cs with
  | nil => rfl
  | cons c cs ih =>
      cases hc : p c with
      | true =>
          rw [splitBy_cons_of_pos hc, List.filter_cons_of_neg (by simp [hc])]
          exact ih
      | false =>
          obtain ⟨piece, pieces, h⟩ := exists_splitBy p cs
          rw [splitBy_cons_of_neg hc h, List.filter_cons_of_pos (by simp [hc]), ← ih, h]
          rfl

/-- What stands in a piece stands in the text, and is no separator. -/
theorem mem_of_mem_splitBy {piece : List Char} (hpiece : piece ∈ splitBy p cs) (hc : c ∈ piece) :
    c ∈ cs ∧ p c = false := by
  have hmem := List.mem_flatten.mpr ⟨piece, hpiece, hc⟩
  rw [flatten_splitBy, List.mem_filter, Bool.not_eq_true'] at hmem
  exact hmem

/-- A text with one piece holds no separator. -/
theorem forall_of_splitBy_eq_singleton {piece : List Char} (h : splitBy p cs = [piece]) :
    ∀ c ∈ cs, p c = false := by
  intro c hc
  obtain ⟨before, after, rfl⟩ := List.append_of_mem hc
  rw [Bool.eq_false_iff]
  intro hseparator
  obtain ⟨first, pieces, hbefore⟩ := exists_splitBy p before
  obtain ⟨second, pieces', hafter⟩ := exists_splitBy p after
  rw [splitBy_append hseparator, hbefore, hafter, List.cons_append, List.cons.injEq] at h
  exact List.append_ne_nil_of_right_ne_nil pieces (List.cons_ne_nil second pieces') h.2

/-- A text without separators is all that stands in front of the first one. -/
theorem append_inj_of_separator {as bs rest rest' : List Char} (has : ∀ c ∈ as, p c = false)
    (hbs : ∀ c ∈ bs, p c = false) (hrest : ∀ c ∈ rest.head?, p c = true)
    (hrest' : ∀ c ∈ rest'.head?, p c = true) (h : as ++ rest = bs ++ rest') :
    as = bs ∧ rest = rest' := by
  induction as generalizing bs with
  | nil =>
      cases bs with
      | nil => exact ⟨rfl, h⟩
      | cons b bs =>
          have hb : rest.head? = some b := by rw [← List.nil_append rest, h]; rfl
          exact absurd (hrest b hb) (Bool.eq_false_iff.mp (hbs b List.mem_cons_self))
  | cons a as ih =>
      cases bs with
      | nil =>
          have ha : rest'.head? = some a := by rw [← List.nil_append rest', ← h]; rfl
          exact absurd (hrest' a ha) (Bool.eq_false_iff.mp (has a List.mem_cons_self))
      | cons b bs =>
          obtain ⟨rfl, htail⟩ := List.cons.inj h
          obtain ⟨rfl, hsame⟩ := ih (fun c hc => has c (List.mem_cons_of_mem a hc))
            (fun c hc => hbs c (List.mem_cons_of_mem a hc)) htail
          exact ⟨rfl, hsame⟩

@[simp] theorem dropLead?_append (lead rest : List Char) :
    dropLead? lead (lead ++ rest) = some rest := by
  induction lead with
  | nil => cases rest <;> rfl
  | cons l lead ih => rw [List.cons_append, dropLead?, if_pos (beq_self_eq_true l), ih]

/-! ## Lines -/

theorem lines_eq_singleton (h : '\n' ∉ cs) : lines cs = [cs] :=
  splitBy_eq_singleton fun _ hc => beq_eq_false_iff_ne.mpr fun heq => h (heq ▸ hc)

/-- The characters of a text that is written out are at hand. -/
theorem newline_not_mem_ofList (h : '\n' ∉ cs) : '\n' ∉ (String.ofList cs).toList := by
  rwa [String.toList_ofList]

/-- A line feed ends what is a line of its own if nothing else does. -/
theorem lines_append (before after : List Char) :
    lines (before ++ '\n' :: after) = lines before ++ lines after :=
  splitBy_append rfl before after

theorem newline_not_mem_of_mem_lines {line : List Char} (h : line ∈ lines cs) : '\n' ∉ line :=
  fun hmem => Bool.false_ne_true ((mem_of_mem_splitBy h hmem).2.symm.trans rfl)

theorem exists_line_of_mem (h : c ∈ cs) (hc : c ≠ '\n') : ∃ line ∈ lines cs, c ∈ line := by
  have hmem : c ∈ (lines cs).flatten := by
    rw [lines, flatten_splitBy]
    exact List.mem_filter.mpr ⟨h, by simpa using hc⟩
  exact List.mem_flatten.mp hmem

/-- The lines of a text behind a text without line feeds. -/
theorem exists_lines_append {before : List Char} (h : '\n' ∉ before) (cs : List Char) :
    ∃ line rest, lines cs = line :: rest ∧ lines (before ++ cs) = (before ++ line) :: rest := by
  induction before with
  | nil =>
      obtain ⟨line, rest, hlines⟩ := exists_splitBy (· == '\n') cs
      exact ⟨line, rest, hlines, hlines⟩
  | cons c before ih =>
      rw [List.mem_cons, not_or] at h
      obtain ⟨line, rest, hlines, hbefore⟩ := ih h.2
      have hc : (c == '\n') = false := beq_eq_false_iff_ne.mpr (Ne.symm h.1)
      exact ⟨line, rest, hlines, splitBy_cons_of_neg (p := (· == '\n')) hc hbefore⟩

/-! ## Joined pieces -/

theorem mem_of_mem_joined {sep : List Char} {pieces : List (List Char)}
    (h : c ∈ joined sep pieces) : c ∈ sep ∨ ∃ piece ∈ pieces, c ∈ piece := by
  induction pieces with
  | nil => cases h
  | cons piece pieces ih =>
      cases pieces with
      | nil => exact Or.inr ⟨piece, List.mem_cons_self, h⟩
      | cons next pieces =>
          rw [joined, List.mem_append, List.mem_append] at h
          · rcases h with (hpiece | hsep) | hrest
            · exact Or.inr ⟨piece, List.mem_cons_self, hpiece⟩
            · exact Or.inl hsep
            · rcases ih hrest with hsep | ⟨other, hother, hc⟩
              · exact Or.inl hsep
              · exact Or.inr ⟨other, List.mem_cons_of_mem piece hother, hc⟩
          · exact fun h => by cases h

theorem mem_joined {sep piece : List Char} {pieces : List (List Char)} (hpiece : piece ∈ pieces)
    (hc : c ∈ piece) : c ∈ joined sep pieces := by
  induction pieces with
  | nil => cases hpiece
  | cons first pieces ih =>
      cases pieces with
      | nil => exact List.mem_singleton.mp hpiece ▸ hc
      | cons next pieces =>
          rcases List.mem_cons.mp hpiece with rfl | hrest
          · exact List.mem_append_left _ (List.mem_append_left _ hc)
          · exact List.mem_append_right _ (ih hrest)

theorem joined_cons (sep piece : List Char) {pieces : List (List Char)} (h : pieces ≠ []) :
    joined sep (piece :: pieces) = piece ++ sep ++ joined sep pieces := by
  cases pieces with
  | nil => exact absurd rfl h
  | cons next pieces => rfl

theorem joined_append (sep : List Char) {before after : List (List Char)} (hbefore : before ≠ [])
    (hafter : after ≠ []) :
    joined sep (before ++ after) = joined sep before ++ sep ++ joined sep after := by
  induction before with
  | nil => exact absurd rfl hbefore
  | cons piece before ih =>
      cases before with
      | nil => exact joined_cons sep piece hafter
      | cons next before =>
          have hrest := ih (List.cons_ne_nil next before)
          have hnext : next :: before ++ after ≠ [] := List.cons_ne_nil _ _
          rw [List.cons_append, joined_cons sep piece hnext, hrest,
            joined_cons sep piece (List.cons_ne_nil next before)]
          simp only [List.append_assoc]

/-- Joined pieces are the pieces of the text. -/
theorem splitBy_joined {sep : Char} {pieces : List (List Char)} (h : pieces ≠ [])
    (hpieces : ∀ piece ∈ pieces, sep ∉ piece) :
    splitBy (· == sep) (joined [sep] pieces) = pieces := by
  induction pieces with
  | nil => exact absurd rfl h
  | cons piece pieces ih =>
      rw [List.forall_mem_cons] at hpieces
      have hpiece : splitBy (· == sep) piece = [piece] :=
        splitBy_eq_singleton fun c hc => beq_eq_false_iff_ne.mpr fun heq => hpieces.1 (heq ▸ hc)
      cases pieces with
      | nil => exact hpiece
      | cons next pieces =>
          rw [joined_cons _ _ (List.cons_ne_nil next pieces), List.append_assoc,
            List.singleton_append, splitBy_append (p := (· == sep)) (beq_self_eq_true sep), hpiece,
            ih (List.cons_ne_nil _ _) hpieces.2]
          rfl

/-- Joined lines are the lines of the text. -/
theorem lines_joined {texts : List (List Char)} (h : texts ≠ [])
    (hlines : ∀ text ∈ texts, '\n' ∉ text) : lines (joined ['\n'] texts) = texts :=
  splitBy_joined h hlines

theorem joined_lines (cs : List Char) : joined ['\n'] (lines cs) = cs := by
  induction cs with
  | nil => rfl
  | cons c cs ih =>
      obtain ⟨line, rest, h⟩ := exists_splitBy (· == '\n') cs
      rw [lines] at ih ⊢
      cases hc : c == '\n' with
      | true =>
          rw [splitBy_cons_of_pos (p := (· == '\n')) hc, joined_cons _ _ (splitBy_ne_nil _ _), ih,
            beq_iff_eq.mp hc]
          rfl
      | false =>
          rw [splitBy_cons_of_neg (p := (· == '\n')) hc h]
          rw [h] at ih
          cases rest with
          | nil => exact congrArg (List.cons c) ih
          | cons next rest => exact congrArg (List.cons c) ih

/-- A text ends in a line feed if its last line is an empty one behind others. -/
theorem getLast?_eq_newline_iff {cs : List Char} :
    cs.getLast? = some '\n' ↔ ∃ before, before ≠ [] ∧ lines cs = before ++ [[]] := by
  rw [List.getLast?_eq_some_iff]
  constructor
  · rintro ⟨text, rfl⟩
    exact ⟨lines text, splitBy_ne_nil _ _, lines_append text []⟩
  · rintro ⟨before, hbefore, hlines⟩
    refine ⟨joined ['\n'] before, ?_⟩
    rw [← joined_lines cs, hlines, joined_append _ hbefore (List.cons_ne_nil _ _)]
    exact List.append_nil _

/-! ## Trimming -/

theorem mem_of_mem_trimEnd (h : c ∈ trimEnd cs) : c ∈ cs :=
  List.mem_reverse.mp ((List.dropWhile_suffix _).subset (List.mem_reverse.mp h))

theorem mem_of_mem_trim (h : c ∈ trim cs) : c ∈ cs :=
  (List.dropWhile_suffix _).subset (mem_of_mem_trimEnd h)

theorem trim_cons_append {first last : Char} (hfirst : isBlank first = false)
    (hlast : isBlank last = false) (cs : List Char) :
    trim (first :: (cs ++ [last])) = first :: (cs ++ [last]) := by
  have hstart : trimStart (first :: (cs ++ [last])) = first :: (cs ++ [last]) :=
    List.dropWhile_cons_of_neg (by simp [hfirst])
  have hreverse : (first :: (cs ++ [last])).reverse = last :: (first :: cs).reverse := by simp
  rw [trim, hstart, trimEnd, hreverse, List.dropWhile_cons_of_neg (by simp [hlast]), ← hreverse,
    List.reverse_reverse]

theorem trim_trim (cs : List Char) : trim (trim cs) = trim cs := by
  have hend : ∀ ds, trimEnd (trimEnd ds) = trimEnd ds := List.rdropWhile_idempotent isBlank
  have hstart : trimStart (trim cs) = trim cs := by
    cases htrim : trim cs with
    | nil => rfl
    | cons c rest =>
        have hprefix : trim cs <+: trimStart cs := List.rdropWhile_prefix isBlank _
        obtain ⟨suffix, hsuffix⟩ := htrim ▸ hprefix
        have hhead := List.head?_dropWhile_not isBlank cs
        rw [← trimStart, ← hsuffix] at hhead
        exact List.dropWhile_cons_of_neg (Bool.eq_false_iff.mp hhead)
  rw [trim, hstart, trim, hend]

end AnnotatedValues.Text
