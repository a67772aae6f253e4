import AnnotatedValues.Decimal.Text
import Mathlib.Tactic.IntervalCases

/-!
# Natural numbers and their digits

The digits of a natural number are those of its tenth part and a last one, and
reading them gives the number back.  Two numbers therefore never share a text.
-/

namespace AnnotatedValues.Decimal

/-- Enough fuel gives all digits, in front of what was written before. -/
theorem digitsWithin_eq_append {fuel n : Nat} (hfuel : n < fuel) (written : List Char) :
    digitsWithin fuel n written = digitsWithin (n + 1) n [] ++ written := by
  induction n using Nat.strongRecOn generalizing fuel written with
  | ind n ih =>
      cases fuel with
      | zero => cases hfuel
      | succ fuel =>
          rw [digitsWithin, digitsWithin]
          split
          · rfl
          · have hless : n / 10 < n := by omega
            rw [ih (n / 10) hless (by omega : n / 10 < fuel),
              ih (n / 10) hless (by omega : n / 10 < n)]
            simp

theorem natText_of_lt {n : Nat} (hn : n < 10) : natText n = [digitChar n] := by
  simp [natText, digitsWithin, hn]

theorem natText_of_ge {n : Nat} (hn : 10 ≤ n) :
    natText n = natText (n / 10) ++ [digitChar (n % 10)] := by
  have hmany : ¬ n < 10 := by omega
  rw [natText, digitsWithin, if_neg hmany, digitsWithin_eq_append (by omega : n / 10 < n)]
  rfl

theorem natText_ne_nil (n : Nat) : natText n ≠ [] := by
  by_cases hn : n < 10
  · simp [natText_of_lt hn]
  · simp [natText_of_ge (by omega : 10 ≤ n)]

theorem exists_digit_of_mem_natText {n : Nat} {c : Char} (h : c ∈ natText n) :
    ∃ digit < 10, c = digitChar digit := by
  induction n using Nat.strongRecOn with
  | ind n ih =>
      by_cases hn : n < 10
      · rw [natText_of_lt hn] at h
        exact ⟨n, hn, List.mem_singleton.mp h⟩
      · rw [natText_of_ge (by omega), List.mem_append] at h
        rcases h with hfront | hlast
        · exact ih (n / 10) (by omega) hfront
        · exact ⟨n % 10, by omega, List.mem_singleton.mp hlast⟩

theorem digitValue?_digitChar {n : Nat} (hn : n < 10) : digitValue? 10 (digitChar n) = some n := by
  interval_cases n <;> rfl

theorem readDigits?_append (base value : Nat) (cs ds : List Char) :
    readDigits? base value (cs ++ ds) =
      (readDigits? base value cs).bind fun v => readDigits? base v ds := by
  induction cs generalizing value with
  | nil => rfl
  | cons c cs ih =>
      rw [List.cons_append, readDigits?, readDigits?]
      cases digitValue? base c with
      | none => rfl
      | some digit => exact ih _

theorem readDigits?_natText (n : Nat) : readDigits? 10 0 (natText n) = some n := by
  induction n using Nat.strongRecOn with
  | ind n ih =>
      by_cases hn : n < 10
      · simp [natText_of_lt hn, readDigits?, digitValue?_digitChar hn]
      · rw [natText_of_ge (by omega), readDigits?_append, ih (n / 10) (by omega), Option.bind_some,
          readDigits?, digitValue?_digitChar (by omega : n % 10 < 10)]
        simp only [readDigits?, Option.some.injEq]
        omega

/-- The text of a natural number reads as the number. -/
theorem readNat?_natText (n : Nat) : readNat? 10 (natText n) = some n := by
  have hread := readDigits?_natText n
  cases htext : natText n with
  | nil => exact absurd htext (natText_ne_nil n)
  | cons c cs =>
      rw [htext] at hread
      exact hread

theorem natText_injective {m n : Nat} (h : natText m = natText n) : m = n := by
  have hm := readNat?_natText m
  rw [h, readNat?_natText n] at hm
  exact (Option.some.inj hm).symm

end AnnotatedValues.Decimal
