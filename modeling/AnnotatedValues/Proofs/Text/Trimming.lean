import AnnotatedValues.Proofs.Text.Lines
import AnnotatedValues.Text.Word
import Mathlib.Data.List.TakeWhile

/-!
# Texts without blanks around them

Trimming leaves a text exactly if neither of its ends is blank.  What stands
between such ends does not matter, so that trimmed texts are put together from
their ends.
-/

namespace AnnotatedValues.Text

variable {c : Char} {cs as bs : List Char}

/-- Neither the first nor the last character is blank. -/
structure Trimmed (cs : List Char) : Prop where
  head : ∀ c ∈ cs.head?, isBlank c = false
  last : ∀ c ∈ cs.getLast?, isBlank c = false

theorem trimStart_eq_self (h : ∀ c ∈ cs.head?, isBlank c = false) : trimStart cs = cs := by
  cases cs with
  | nil => rfl
  | cons c cs => exact List.dropWhile_cons_of_neg (Bool.eq_false_iff.mp (h c rfl))

theorem trimEnd_eq_self (h : ∀ c ∈ cs.getLast?, isBlank c = false) : trimEnd cs = cs := by
  have hreverse : trimStart cs.reverse = cs.reverse := trimStart_eq_self fun c hc => h c (by simpa using hc)
  rw [trimEnd, ← trimStart, hreverse, List.reverse_reverse]

theorem head?_trimStart (cs : List Char) : ∀ c ∈ (trimStart cs).head?, isBlank c = false := by
  intro c hc
  have hhead := List.head?_dropWhile_not isBlank cs
  rw [← trimStart, hc] at hhead
  exact hhead

theorem trim_eq_self_iff : trim cs = cs ↔ Trimmed cs := by
  constructor
  · intro h
    have hlength : cs.length ≤ (trimStart cs).length := by
      conv_lhs => rw [← h]
      exact length_trimEnd_le (trimStart cs)
    have hstart : trimStart cs = cs := (List.dropWhile_suffix _).eq_of_length_le hlength
    have hend : trimStart cs.reverse = cs.reverse := by
      rw [trim, hstart, trimEnd, ← trimStart] at h
      exact List.reverse_eq_iff.mp h
    exact ⟨hstart ▸ head?_trimStart cs, fun c hc => head?_trimStart cs.reverse c (by
      rw [hend, List.head?_reverse]
      exact hc)⟩
  · intro h
    rw [trim, trimStart_eq_self h.head, trimEnd_eq_self h.last]

theorem Trimmed.trim_eq (h : Trimmed cs) : trim cs = cs := trim_eq_self_iff.mpr h

theorem trimmed_of_not_isBlank (h : ∀ c ∈ cs, isBlank c = false) : Trimmed cs where
  head := fun c hc => h c (List.mem_of_mem_head? hc)
  last := fun c hc => h c (List.mem_of_mem_getLast? hc)

theorem isBlank_getLast?_append (has : ∀ c ∈ as.getLast?, isBlank c = false)
    (hbs : ∀ c ∈ bs.getLast?, isBlank c = false) : ∀ c ∈ (as ++ bs).getLast?, isBlank c = false := by
  intro c hc
  rw [List.getLast?_append, Option.mem_def, Option.or_eq_some_iff] at hc
  rcases hc with hlast | ⟨-, hfirst⟩
  · exact hbs c hlast
  · exact has c hfirst

theorem Trimmed.append (has : as ≠ []) (hbs : bs ≠ []) (hhead : ∀ c ∈ as.head?, isBlank c = false)
    (hlast : ∀ c ∈ bs.getLast?, isBlank c = false) : Trimmed (as ++ bs) where
  head := by rwa [List.head?_append_of_ne_nil _ has]
  last := by rwa [List.getLast?_append_of_ne_nil _ hbs]

theorem trimStart_append (has : as ≠ []) (hlast : ∀ c ∈ as.getLast?, isBlank c = false)
    (bs : List Char) : trimStart (as ++ bs) = trimStart as ++ bs := by
  have hne : trimStart as ≠ [] := by
    intro hnil
    have hblank := List.dropWhile_eq_nil_iff.mp hnil (as.getLast has) (List.getLast_mem has)
    exact Bool.false_ne_true ((hlast _ (List.getLast?_eq_getLast_of_ne_nil has)).symm.trans hblank)
  rw [trimStart, List.dropWhile_append, ← trimStart, List.isEmpty_eq_false_iff.mpr hne,
    if_neg Bool.false_ne_true]

/-- Trimming stops in front of a character that is not blank. -/
theorem trimEnd_append_cons (hc : isBlank c = false) (as bs : List Char) :
    trimEnd (as ++ c :: bs) = as ++ c :: trimEnd bs := by
  have hreverse : (as ++ c :: bs).reverse = bs.reverse ++ c :: as.reverse := by simp
  have hstop : (c :: as.reverse).dropWhile isBlank = c :: as.reverse :=
    List.dropWhile_cons_of_neg (Bool.eq_false_iff.mp hc)
  rw [trimEnd, trimEnd, hreverse, List.dropWhile_append]
  split
  · rename_i hnil
    rw [hstop, List.isEmpty_iff.mp hnil, List.reverse_cons, List.reverse_reverse]
    rfl
  · simp

/-! ## Blanks -/

def IsBlanks (cs : List Char) : Prop := ∀ c ∈ cs, isBlank c = true

instance (cs : List Char) : Decidable (IsBlanks cs) :=
  decidable_of_iff (cs.all isBlank = true) List.all_eq_true

theorem isBlanks_nil : IsBlanks [] := fun _ h => by cases h

theorem isBlanks_cons (hc : isBlank c = true) (h : IsBlanks cs) : IsBlanks (c :: cs) :=
  List.forall_mem_cons.mpr ⟨hc, h⟩

theorem IsBlanks.append (has : IsBlanks as) (hbs : IsBlanks bs) : IsBlanks (as ++ bs) :=
  List.forall_mem_append.mpr ⟨has, hbs⟩

theorem trimStart_blanks_append (h : IsBlanks as) (cs : List Char) :
    trimStart (as ++ cs) = trimStart cs := List.dropWhile_append_of_pos h

theorem trimEnd_append_blanks (h : IsBlanks bs) (cs : List Char) :
    trimEnd (cs ++ bs) = trimEnd cs := by
  have hreverse : IsBlanks bs.reverse := fun c hc => h c (List.mem_reverse.mp hc)
  rw [trimEnd, List.reverse_append, ← trimStart, trimStart_blanks_append hreverse, trimStart, ← trimEnd]

theorem trim_append_blanks (h : IsBlanks bs) (cs : List Char) : trim (cs ++ bs) = trim cs := by
  rw [trim, trim, trimStart, List.dropWhile_append]
  split
  · rename_i hnil
    rw [trimStart, List.isEmpty_iff.mp hnil, List.dropWhile_eq_nil_iff.mpr h]
  · exact trimEnd_append_blanks h _

/-- What trimming takes from the end of a text is blank. -/
theorem exists_trimEnd_append (cs : List Char) : ∃ after, IsBlanks after ∧ cs = trimEnd cs ++ after := by
  refine ⟨(cs.reverse.takeWhile isBlank).reverse, fun c hc => ?_, ?_⟩
  · exact List.mem_takeWhile_imp (List.mem_reverse.mp hc)
  · rw [trimEnd, ← List.reverse_append, List.takeWhile_append_dropWhile, List.reverse_reverse]

theorem mem_trimEnd (h : c ∈ cs) (hc : isBlank c = false) : c ∈ trimEnd cs := by
  obtain ⟨after, hafter, hsplit⟩ := exists_trimEnd_append cs
  rw [hsplit, List.mem_append] at h
  exact h.resolve_right fun hmem => Bool.false_ne_true (hc.symm.trans (hafter c hmem))

theorem exists_append_trim_append (cs : List Char) :
    ∃ before after, IsBlanks before ∧ IsBlanks after ∧ cs = before ++ trim cs ++ after := by
  obtain ⟨after, hafter, htrim⟩ := exists_trimEnd_append (trimStart cs)
  refine ⟨cs.takeWhile isBlank, after, fun c => List.mem_takeWhile_imp, hafter, ?_⟩
  rw [List.append_assoc, trim, ← htrim, trimStart, List.takeWhile_append_dropWhile]

/-- A text between blanks is what trimming leaves. -/
theorem Trimmed.trim_between (h : Trimmed cs) (hne : cs ≠ []) (has : IsBlanks as) (hbs : IsBlanks bs) :
    trim (as ++ cs ++ bs) = cs := by
  have hhead : ∀ c ∈ (cs ++ bs).head?, isBlank c = false := by
    rw [List.head?_append_of_ne_nil _ hne]
    exact h.head
  rw [List.append_assoc, trim, trimStart_blanks_append has, trimStart_eq_self hhead,
    trimEnd_append_blanks hbs, trimEnd_eq_self h.last]

theorem mem_trim_or_isBlank (h : c ∈ cs) : c ∈ trim cs ∨ isBlank c = true := by
  obtain ⟨before, after, hbefore, hafter, hsplit⟩ := exists_append_trim_append cs
  rw [hsplit, List.mem_append, List.mem_append] at h
  rcases h with (hblank | hinside) | hblank
  · exact Or.inr (hbefore c hblank)
  · exact Or.inl hinside
  · exact Or.inr (hafter c hblank)

theorem mem_head?_trimStart_append (h : c ∈ (trimStart (as ++ bs)).head?) :
    c ∈ as ∨ c ∈ (trimStart bs).head? := by
  induction as with
  | nil => exact Or.inr h
  | cons a as ih =>
      rw [List.cons_append, trimStart, List.dropWhile_cons] at h
      split at h
      · exact (ih h).imp_left (List.mem_cons_of_mem a)
      · exact Or.inl (Option.mem_some_iff.mp h ▸ List.mem_cons_self)

/-- The characters of a kind at the start of a text, up to one that is not. -/
theorem span_append {p : Char → Bool} (has : ∀ c ∈ as, p c = true)
    (hbs : ∀ c ∈ bs.head?, p c = false) :
    (as ++ bs).takeWhile p = as ∧ (as ++ bs).dropWhile p = bs := by
  rw [List.takeWhile_append_of_pos has, List.dropWhile_append_of_pos has]
  cases bs with
  | nil => exact ⟨List.append_nil as, rfl⟩
  | cons b bs =>
      have hb := Bool.eq_false_iff.mp (hbs b rfl)
      rw [List.takeWhile_cons_of_neg hb, List.dropWhile_cons_of_neg hb]
      exact ⟨List.append_nil as, rfl⟩

/-- A lead does not reach beyond a character that it does not hold. -/
theorem eq_append_of_dropLead?_append (cs : List Char) {lead rest tail : List Char} (hc : c ∉ lead)
    (h : dropLead? lead (cs ++ c :: tail) = some rest) :
    ∃ after, cs = lead ++ after ∧ rest = after ++ c :: tail := by
  rcases List.append_eq_append_iff.mp (eq_append_of_dropLead? h) with
    ⟨beyond, hlead, htail⟩ | ⟨after, hcs, hrest⟩
  · cases beyond with
    | nil => exact ⟨[], by simpa using hlead.symm, by simpa using htail.symm⟩
    | cons d beyond =>
        obtain ⟨rfl, -⟩ := List.cons.inj htail
        exact absurd (hlead ▸ List.mem_append_right cs List.mem_cons_self) hc
  · exact ⟨after, hcs, hrest⟩

/-- The code points of blank characters. -/
def blankCodes : List Nat :=
  List.range' 9 5 ++ [0x20, 0x85, 0xA0, 0x1680] ++ List.range' 0x2000 11 ++
    [0x2028, 0x2029, 0x202F, 0x205F, 0x3000]

theorem mem_blankCodes (h : isBlank c = true) : c.toNat ∈ blankCodes := by
  simp only [isBlank, Bool.or_eq_true, Bool.and_eq_true, decide_eq_true_eq, beq_iff_eq] at h
  simp only [blankCodes, List.mem_append, List.mem_range'_1, List.mem_cons, List.not_mem_nil,
    or_false]
  omega

/-- No character of words is blank. -/
theorem isBlank_of_isWord (h : isWord c = true) : isBlank c = false := by
  have hblanks : ∀ n ∈ blankCodes, isWord (Char.ofNat n) = false := by decide +kernel
  rw [Bool.eq_false_iff]
  intro hblank
  have hnot := hblanks c.toNat (mem_blankCodes hblank)
  rw [Char.ofNat_toNat, h] at hnot
  cases hnot

end AnnotatedValues.Text
