import AnnotatedValues.Annotation.Scan
import Mathlib.Data.List.Induction

/-!
# A scan as a run over directives

Only lines with a directive count.  What is proved of a scan is therefore proved
for each list of numbered directives, by adding one directive at its end; the
number of that one is new.
-/

namespace AnnotatedValues.Annotation.Scan

/-- A directive behind the number of its line. -/
abbrev Numbered := Nat × Directive

/-- The directives of lines, the first of which has the number `line`. -/
def directives (line : Nat) (texts : List (List Char)) : List Numbered :=
  (texts.zipIdx line).filterMap fun entry =>
    (Directive.ofLine? entry.1).map fun directive => (entry.2, directive)

variable {line : Nat} {texts : List (List Char)}

theorem directives_append (line : Nat) (before after : List (List Char)) :
    directives line (before ++ after) =
      directives line before ++ directives (line + before.length) after := by
  rw [directives, List.zipIdx_append, List.filterMap_append]
  rfl

theorem directives_cons_of_some {text : List Char} {directive : Directive}
    (h : Directive.ofLine? text = some directive) :
    directives line (text :: texts) = (line, directive) :: directives (line + 1) texts := by
  rw [directives, List.zipIdx_cons, List.filterMap_cons_some (by rw [h]; rfl)]
  rfl

theorem directives_cons_of_none {text : List Char} (h : Directive.ofLine? text = none) :
    directives line (text :: texts) = directives (line + 1) texts := by
  rw [directives, List.zipIdx_cons, List.filterMap_cons_none (by rw [h]; rfl)]
  rfl

/-- A line with a directive adds it to those of the lines before. -/
theorem directives_concat {before after : List (List Char)} {text : List Char}
    {directive : Directive} (h : Directive.ofLine? text = some directive) :
    directives 1 before ++ [(before.length + 1, directive)] <+:
      directives 1 (before ++ text :: after) := by
  rw [directives_append, directives_cons_of_some h, Nat.add_comm 1]
  exact (List.prefix_append_right_inj _).mpr (List.prefix_append [_] _)

theorem lt_of_mem_directives {d : Numbered} (h : d ∈ directives line texts) :
    d.1 < line + texts.length := by
  obtain ⟨entry, hentry, hd⟩ := List.mem_filterMap.mp h
  obtain ⟨directive, -, rfl⟩ := Option.map_eq_some_iff.mp hd
  exact Nat.add_comm _ _ ▸ List.snd_lt_of_mem_zipIdx hentry

theorem le_of_mem_directives {d : Numbered} (h : d ∈ directives line texts) : line ≤ d.1 := by
  obtain ⟨entry, hentry, hd⟩ := List.mem_filterMap.mp h
  obtain ⟨directive, -, rfl⟩ := Option.map_eq_some_iff.mp hd
  exact List.le_snd_of_mem_zipIdx hentry

/-- The state behind directives. -/
def applyAll (s : State) (ds : List Numbered) : State := ds.foldl (fun s d => apply s d.1 d.2) s

theorem run_eq_applyAll (s : State) (line : Nat) (texts : List (List Char)) :
    run s line texts = applyAll s (directives line texts) := by
  induction texts generalizing s line with
  | nil => rfl
  | cons text texts ih =>
      rw [run, step, ih]
      cases h : Directive.ofLine? text with
      | none => rw [directives_cons_of_none h]
      | some directive =>
          rw [directives_cons_of_some h]
          rfl

theorem run_append (s : State) (line : Nat) (before after : List (List Char)) :
    run s line (before ++ after) = run (run s line before) (line + before.length) after := by
  rw [run_eq_applyAll, run_eq_applyAll, run_eq_applyAll, directives_append, applyAll, applyAll,
    applyAll, List.foldl_append]

/-- What holds at the start and is kept by each directive on a line of its own, holds behind the
directives of any lines. -/
theorem past_induction {motive : List Numbered → State → Prop} (start : motive [] empty)
    (step : ∀ {past s} (d : Numbered), (∀ e ∈ past, e.1 ≠ d.1) → motive past s →
      motive (past ++ [d]) (apply s d.1 d.2)) (texts : List (List Char)) :
    motive (directives 1 texts) (run empty 1 texts) := by
  induction texts using List.reverseRecOn with
  | nil => exact start
  | append_singleton texts text ih =>
      rw [run_append, directives_append, run, run, Scan.step]
      cases h : Directive.ofLine? text with
      | none =>
          rw [directives_cons_of_none h]
          exact (List.append_nil (directives 1 texts)).symm ▸ ih
      | some directive =>
          rw [directives_cons_of_some h]
          exact step (1 + texts.length, directive)
            (fun e he => Nat.ne_of_lt (lt_of_mem_directives he)) ih

end AnnotatedValues.Annotation.Scan
