import AnnotatedValues.Decimal.Text
import AnnotatedValues.Document.Json
import AnnotatedValues.Proofs.Decimal.Digits

/-!
# What numbers as text consist of

Digits, signs, points and the letter of an exponent are the only characters of
numbers as text.
-/

namespace AnnotatedValues

namespace Decimal

def numerals : List Char := "0123456789+-.e".toList

theorem natText_subset (n : Nat) : natText n ⊆ numerals := by
  have hdigits : ∀ d < 10, digitChar d ∈ numerals := by decide
  intro c hc
  obtain ⟨digit, hdigit, rfl⟩ := exists_digit_of_mem_natText hc
  exact hdigits digit hdigit

theorem intText_subset (n : Int) : intText n ⊆ numerals := by
  unfold intText
  split
  · exact List.cons_subset.mpr ⟨by decide, natText_subset _⟩
  · exact natText_subset _

variable {digits : List Char} (h : digits ⊆ numerals)

include h

theorem positional_subset (point : Int) : positional digits point ⊆ numerals := by
  have hzeros : ∀ n, List.replicate n '0' ⊆ numerals := fun n _ hc =>
    List.eq_of_mem_replicate hc ▸ by decide
  unfold positional
  split
  · exact List.append_subset.mpr ⟨List.cons_subset.mpr ⟨by decide,
      List.cons_subset.mpr ⟨by decide, hzeros _⟩⟩, h⟩
  · split
    · exact List.append_subset.mpr ⟨List.append_subset.mpr ⟨h, hzeros _⟩, by decide⟩
    · exact List.append_subset.mpr ⟨fun _ hc => h (List.mem_of_mem_take hc),
        List.cons_subset.mpr ⟨by decide, fun _ hc => h (List.mem_of_mem_drop hc)⟩⟩

theorem scientific_subset (format : ExponentFormat) (exponent : Int) :
    scientific format digits exponent ⊆ numerals := by
  unfold scientific
  dsimp only
  refine List.append_subset.mpr ⟨List.append_subset.mpr ⟨?_, List.cons_subset.mpr ⟨by decide, ?_⟩⟩,
    intText_subset exponent⟩
  · split
    · rw [List.cons_subset] at h
      exact List.cons_subset.mpr ⟨h.1, List.cons_subset.mpr ⟨by decide, h.2⟩⟩
    · exact h
  · split <;> decide

omit h

theorem magnitudeText_subset (format : ExponentFormat) (x : Binary64) :
    x.magnitudeText format ⊆ numerals := by
  unfold Binary64.magnitudeText
  split
  · decide
  · dsimp only
    split
    · exact positional_subset (natText_subset _) _
    · exact scientific_subset (natText_subset _) format _

theorem text_subset (format : ExponentFormat) (x : Binary64) : x.text format ⊆ numerals := by
  unfold Binary64.text
  split
  · exact List.cons_subset.mpr ⟨by decide, magnitudeText_subset format x⟩
  · exact magnitudeText_subset format x

end Decimal

theorem Json.numberText_subset (n : Number) : numberText n ⊆ Decimal.numerals := by
  cases n with
  | int n => exact Decimal.intText_subset n
  | float x => exact Decimal.text_subset _ x

end AnnotatedValues
