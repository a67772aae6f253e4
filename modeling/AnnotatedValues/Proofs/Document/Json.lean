import AnnotatedValues.Document.Json

/-!
# What JSON texts hold

Quotes, backslashes and control characters are escaped in strings, and all other
characters stand for themselves.  An escape takes two characters or more and no
line feed.
-/

namespace AnnotatedValues.Json

/-- A character that is no quotation mark, no backslash and no control character. -/
def IsPlain (c : Char) : Prop := c ≠ '"' ∧ c ≠ '\\' ∧ 0x20 ≤ c.toNat

theorem escapeChar_of_isPlain {c : Char} (h : IsPlain c) : escapeChar c = [c] := by
  obtain ⟨hquote, hbackslash, hcontrol⟩ := h
  have hne : ∀ d : Char, d.toNat < 0x20 → (c == d) = false := by
    intro d hd
    rw [beq_eq_false_iff_ne]
    rintro rfl
    exact Nat.not_lt.mpr hcontrol hd
  simp only [escapeChar, beq_eq_false_iff_ne.mpr hquote, beq_eq_false_iff_ne.mpr hbackslash,
    hne '\n' (by decide), hne '\r' (by decide), hne '\t' (by decide), hne '\x08' (by decide),
    hne '\x0c' (by decide), Bool.false_eq_true, if_false, if_neg (Nat.not_lt.mpr hcontrol)]

/-- An escape is longer than its character and holds a quotation mark for no other one. -/
theorem escapeChar_of_not_isPlain {c : Char} (h : ¬ IsPlain c) :
    2 ≤ (escapeChar c).length ∧ '\n' ∉ escapeChar c ∧ ('"' ∈ escapeChar c → c = '"') := by
  have hcontrol : ∀ n < 0x20, 2 ≤ (escapeChar (Char.ofNat n)).length ∧
      '\n' ∉ escapeChar (Char.ofNat n) ∧ ('"' ∈ escapeChar (Char.ofNat n) → Char.ofNat n = '"') := by
    decide
  by_cases hquote : c = '"'
  · subst hquote
    decide
  · by_cases hbackslash : c = '\\'
    · subst hbackslash
      decide
    · have hc := hcontrol c.toNat (Nat.not_le.mp fun hle => h ⟨hquote, hbackslash, hle⟩)
      rwa [Char.ofNat_toNat] at hc

theorem length_le_length_escape (cs : List Char) : cs.length ≤ (escape cs).length := by
  induction cs with
  | nil => exact Nat.le_refl 0
  | cons c cs ih =>
      have hc : 1 ≤ (escapeChar c).length := by
        by_cases h : IsPlain c
        · rw [escapeChar_of_isPlain h]
          exact Nat.le_refl 1
        · exact Nat.le_of_succ_le (escapeChar_of_not_isPlain h).1
      rw [escape] at ih ⊢
      rw [List.flatMap_cons, List.length_append, List.length_cons]
      omega

/-- A text is written as it is if all its characters are plain. -/
theorem escape_eq_self_iff (cs : List Char) : escape cs = cs ↔ ∀ c ∈ cs, IsPlain c := by
  induction cs with
  | nil => simp [escape]
  | cons c cs ih =>
      rw [List.forall_mem_cons, ← ih]
      have hescape : escape (c :: cs) = escapeChar c ++ escape cs := rfl
      by_cases h : IsPlain c
      · rw [hescape, escapeChar_of_isPlain h, List.singleton_append, List.cons_inj_right]
        exact (and_iff_right h).symm
      · constructor
        · intro heq
          have hlength := congrArg List.length heq
          have hcs := length_le_length_escape cs
          have hc := (escapeChar_of_not_isPlain h).1
          rw [hescape, List.length_append, List.length_cons] at hlength
          omega
        · exact fun hplain => absurd hplain.1 h

theorem newline_not_mem_escape (cs : List Char) : '\n' ∉ escape cs := by
  intro hmem
  obtain ⟨c, -, hc⟩ := List.mem_flatMap.mp hmem
  by_cases h : IsPlain c
  · rw [escapeChar_of_isPlain h, List.mem_singleton] at hc
    subst hc
    exact absurd h.2.2 (by decide)
  · exact (escapeChar_of_not_isPlain h).2.1 hc

theorem quote_mem_of_mem_escape {cs : List Char} (hmem : '"' ∈ escape cs) : '"' ∈ cs := by
  obtain ⟨c, hcs, hc⟩ := List.mem_flatMap.mp hmem
  by_cases h : IsPlain c
  · rw [escapeChar_of_isPlain h, List.mem_singleton] at hc
    exact hc ▸ hcs
  · exact (escapeChar_of_not_isPlain h).2.2 hc ▸ hcs

/-- A string literal is a single line. -/
theorem newline_not_mem_quoted (s : String) : '\n' ∉ quoted s := by
  simp [quoted, newline_not_mem_escape]

end AnnotatedValues.Json
