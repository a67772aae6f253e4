import AnnotatedValues.Go.Default
import AnnotatedValues.Proofs.Decimal.Text
import AnnotatedValues.Proofs.Document.Json
import AnnotatedValues.Proofs.Keyed
import AnnotatedValues.Proofs.Resolved.Spelling
import AnnotatedValues.Proofs.Text.Lines

/-!
# Defaults and choices on one line

The literal of a document, the literal of a string and the list of choices hold
no line feed.  The value of a marker therefore stands on one line unless it is a
text that was taken as it is.
-/

namespace AnnotatedValues

open Text

/-! ## Numbers -/

theorem Json.unbroken_numberText (n : Number) : Unbroken (numberText n) := by
  have hbreaks : ∀ c ∈ Decimal.numerals, decide (c ∉ breaks) = true :=
    List.all_eq_true.mp (by decide)
  exact fun c hc => of_decide_eq_true (hbreaks c (numberText_subset n hc))

/-! ## Literals -/

namespace Go

theorem newline_not_mem_braced {pieces : List (List Char)} (h : ∀ piece ∈ pieces, '\n' ∉ piece) :
    '\n' ∉ '\x7b' :: joined [','] pieces ++ ['\x7d'] := by
  have hjoined : '\n' ∉ joined [','] pieces := by
    intro hmem
    rcases mem_of_mem_joined hmem with hcomma | ⟨piece, hpiece, hmem⟩
    · revert hcomma
      decide
    · exact h piece hpiece hmem
  simp [hjoined]

mutual

/-- No literal of a document breaks its line, -/
theorem newline_not_mem_literalText : (d : Document) → '\n' ∉ literalText d
  | .null => by decide
  | .bool true => by decide
  | .bool false => by decide
  | .number n => (Json.unbroken_numberText n).newline_not_mem
  | .string s => Json.newline_not_mem_quoted s
  | .array items => by
      rw [literalText]
      exact newline_not_mem_braced (newline_not_mem_literalItems items)
  | .object entries => by
      have hentries := newline_not_mem_literalEntries entries
      rw [literalText]
      refine newline_not_mem_braced fun piece hpiece => ?_
      obtain ⟨entry, hentry, rfl⟩ := List.mem_map.mp hpiece
      have hvalue := hentries entry (Keyed.mem_sortEntries.mp hentry)
      simp [Json.newline_not_mem_quoted, hvalue]
termination_by structural d => d

/-- nor does one of its items -/
theorem newline_not_mem_literalItems : (items : List Document) →
    ∀ text ∈ literalItems items, '\n' ∉ text
  | [] => fun text h => by cases h
  | item :: items => by
      intro text h
      rcases List.mem_cons.mp h with rfl | hrest
      · exact newline_not_mem_literalText item
      · exact newline_not_mem_literalItems items text hrest
termination_by structural items => items

/-- or entries. -/
theorem newline_not_mem_literalEntries : (entries : List (String × Document)) →
    ∀ entry ∈ literalEntries entries, '\n' ∉ entry.2
  | [] => fun entry h => by cases h
  | (key, value) :: entries => by
      intro entry h
      rcases List.mem_cons.mp h with rfl | hrest
      · exact newline_not_mem_literalText value
      · exact newline_not_mem_literalEntries entries entry hrest
termination_by structural entries => entries

end

/-! ## Values of markers -/

theorem newline_not_mem_quoted (s : String) : '\n' ∉ (quoted s).toList := by
  rw [quoted, String.toList_ofList]
  exact Json.newline_not_mem_quoted s

theorem newline_not_mem_choicesText (choices : List String) :
    '\n' ∉ (choicesText choices).toList := by
  unfold choicesText
  induction choices with
  | nil => exact List.not_mem_nil
  | cons choice choices ih =>
      cases choices with
      | nil =>
          rw [List.map_singleton, String.intercalate_singleton]
          exact newline_not_mem_quoted choice
      | cons next choices =>
          rw [List.map_cons, List.map_cons, String.intercalate_cons_cons, ← List.map_cons,
            String.toList_append, String.toList_append, List.mem_append, List.mem_append]
          rintro ((hchoice | hsemicolon) | hrest)
          · exact newline_not_mem_quoted choice hchoice
          · revert hsemicolon
            decide
          · exact ih hrest

/-- A default that breaks its line is a text that was taken as it is. -/
theorem eq_raw_of_newline_mem {value : DefaultValue} (h : '\n' ∈ (defaultText value).toList) :
    ∃ text, value = .raw text ∧ '\n' ∈ text.toList := by
  cases value with
  | string s => exact absurd h (newline_not_mem_quoted s)
  | document d =>
      rw [defaultText, String.toList_ofList] at h
      exact absurd h (newline_not_mem_literalText d)
  | raw text => exact ⟨text, rfl, h⟩

end Go

end AnnotatedValues
