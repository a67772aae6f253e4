import AnnotatedValues.Text.WordRanges

/-! Word characters: what names in annotations are made of, beside a few punctuation marks. -/
namespace AnnotatedValues.Text

/-- Membership in an ascending list of closed ranges of code points. -/
def inRanges (n : Nat) : List (Nat × Nat) → Bool
  | [] => false
  | (low, high) :: ranges => if n < low then false else n ≤ high || inRanges n ranges

/-- Letters, marks, decimal digits, connector punctuation and join controls. -/
def isWord (c : Char) : Bool :=
  if c.toNat < 128 then c.isAlphanum || c == '_' else inRanges c.toNat wordRanges

theorem isWord_of_isAlphanum {c : Char} (h : c.isAlphanum = true) : isWord c = true := by
  have ascii : c.toNat < 128 := by
    have h : (decide (c.val ≥ 65 ∧ c.val ≤ 90) || (decide (c.val ≥ 97) && decide (c.val ≤ 122)) ||
        (decide (c.val ≥ 48) && decide (c.val ≤ 57))) = true := h
    simp only [Bool.or_eq_true, Bool.and_eq_true, decide_eq_true_eq] at h
    have letter : ∀ n : UInt32, c.val ≤ n → c.val.toNat ≤ n.toNat := fun _ => UInt32.le_iff_toNat_le.1
    rcases h with (h | h) | h <;> exact Nat.lt_of_le_of_lt (letter _ h.2) (by decide)
  simp [isWord, ascii, h]

end AnnotatedValues.Text
