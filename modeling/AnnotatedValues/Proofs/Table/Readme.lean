import AnnotatedValues.Proofs.Text.Lines
import AnnotatedValues.Table.Readme
import Mathlib.Data.List.TakeWhile

/-!
# Readmes with a parameters section

A line is the heading of a parameters section if it has two or more hashes, a
blank, and then only the word and blanks.  A text is updated exactly if one of
its lines is such a heading.
-/

namespace AnnotatedValues.Readme

open Text

/-! ## Pieces of a line -/

theorem replicate_length_of_isHash {cs : List Char} (h : ∀ c ∈ cs, isHash c = true) :
    cs = List.replicate cs.length '#' :=
  List.eq_replicate_of_mem fun c hc => beq_iff_eq.mp (h c hc)

/-! ## Headings -/

/-- The heading of a parameters section: hashes, at least one blank, and the word. -/
def IsHeadingOfDepth (depth : Nat) (line : List Char) : Prop :=
  ∃ blanks after, blanks ≠ [] ∧ (∀ c ∈ blanks, isBlank c = true) ∧
    (∀ c ∈ after, isBlank c = true) ∧
      line = List.replicate depth '#' ++ blanks ++ "Parameters".toList ++ after

/-- A line that opens a parameters section. -/
def IsParametersHeading (line : List Char) : Prop := ∃ depth ≥ 2, IsHeadingOfDepth depth line

theorem hashes_of_blank {depth : Nat} {c : Char} {cs : List Char} (hc : isBlank c = true) :
    hashes (List.replicate depth '#' ++ c :: cs) = (depth, c :: cs) := by
  have hall : ∀ x ∈ List.replicate depth '#', isHash x = true := by
    intro x hx
    rw [List.eq_of_mem_replicate hx]
    rfl
  have hstop : isHash c = false := by
    rw [Bool.eq_false_iff]
    intro hhash
    rw [beq_iff_eq.mp hhash] at hc
    revert hc
    decide
  rw [hashes, List.takeWhile_append_of_pos hall, List.dropWhile_append_of_pos hall,
    List.takeWhile_cons_of_neg (by simp [hstop]), List.dropWhile_cons_of_neg (by simp [hstop])]
  simp

theorem replicate_append_hashes (line : List Char) :
    List.replicate (hashes line).1 '#' ++ (hashes line).2 = line := by
  have hhashes : line.takeWhile isHash = List.replicate (hashes line).1 '#' :=
    replicate_length_of_isHash fun x hx => List.mem_takeWhile_imp hx
  rw [← hhashes]
  exact List.takeWhile_append_dropWhile

theorem parametersDepth?_eq_some_iff {line : List Char} {depth : Nat} :
    parametersDepth? line = some depth ↔ 2 ≤ depth ∧ IsHeadingOfDepth depth line := by
  constructor
  · intro h
    unfold parametersDepth? at h
    split at h
    · rename_i c cs hbehind
      split at h
      · rename_i hguard
        rw [Bool.and_eq_true, decide_eq_true_eq] at hguard
        split at h
        · rename_i rest hrest
          split at h
          · rename_i hall
            cases h
            refine ⟨hguard.1, c :: cs.takeWhile isBlank, rest, List.cons_ne_nil _ _, ?_, ?_, ?_⟩
            · intro x hx
              rcases List.mem_cons.mp hx with rfl | hx
              · exact hguard.2
              · exact List.mem_takeWhile_imp hx
            · exact List.all_eq_true.mp hall
            · have hblanks : cs = cs.takeWhile isBlank ++ ("Parameters".toList ++ rest) := by
                rw [← eq_append_of_dropLead? hrest]
                exact List.takeWhile_append_dropWhile.symm
              calc line = List.replicate (hashes line).1 '#' ++ c :: cs := by
                    rw [← hbehind, replicate_append_hashes]
                _ = _ := by
                    rw [List.append_assoc, List.append_assoc, List.cons_append, ← hblanks]
          · cases h
        · cases h
      · cases h
    · cases h
  · rintro ⟨hdepth, blanks, after, hblanks, hall, hafter, rfl⟩
    cases blanks with
    | nil => exact absurd rfl hblanks
    | cons c blanks =>
        have hc := hall c List.mem_cons_self
        have hrest : trimStart (blanks ++ ("Parameters".toList ++ after)) =
            "Parameters".toList ++ after := by
          rw [trimStart, List.dropWhile_append_of_pos fun x hx => hall x (List.mem_cons_of_mem c hx)]
          rfl
        rw [List.append_assoc, List.append_assoc, List.cons_append]
        unfold parametersDepth?
        simp only [hashes_of_blank hc, hrest, dropLead?_append]
        simpa [hdepth, hc] using hafter

/-! ## Updating -/

theorem exists_split?_iff {lines : List (List Char)} :
    (∃ parts, split? lines = some parts) ↔ ∃ line ∈ lines, IsParametersHeading line := by
  induction lines with
  | nil => simp [split?]
  | cons line lines ih =>
      simp only [split?, List.mem_cons, exists_eq_or_imp, ← ih]
      cases hdepth : parametersDepth? line with
      | some depth =>
          rw [parametersDepth?_eq_some_iff] at hdepth
          simp only [Option.some.injEq, exists_eq', true_iff]
          exact Or.inl ⟨depth, hdepth⟩
      | none =>
          have hplain : ¬ IsParametersHeading line := by
            rintro ⟨depth, hheading⟩
            rw [parametersDepth?_eq_some_iff.mpr hheading] at hdepth
            cases hdepth
          simp only [hplain, false_or, Option.map_eq_some_iff]
          constructor
          · rintro ⟨_, parts, hparts, -⟩
            exact ⟨parts, hparts⟩
          · rintro ⟨parts, hparts⟩
            exact ⟨_, parts, hparts, rfl⟩

/-- A text is updated exactly if it has a parameters section. -/
theorem exists_update_iff {readme : String} (tables : List Table) :
    (∃ text, update readme tables = .ok text) ↔
      ∃ line ∈ lines readme.toList, IsParametersHeading line := by
  rw [← exists_split?_iff, update]
  cases split? (lines readme.toList) with
  | none => simp
  | some parts => simp

end AnnotatedValues.Readme
