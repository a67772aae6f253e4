import AnnotatedValues.Proofs.Annotation.Attachment
import AnnotatedValues.Proofs.Annotation.Scan

/-!
# Parameters in their sections

A parameter is listed once, however often its name is declared: in the section
that was open at the first declaration.  The titles behind that section are those
of the lines that open sections behind the declaration.
-/

namespace AnnotatedValues.Annotation

namespace Directive

/-- The title of the section that the directive opens. -/
def title? : Directive → Option String
  | .section title => some (String.ofList title)
  | _ => none

/-- The name of the parameter that the directive declares. -/
def paramName? : Directive → Option String
  | .param m => some (String.ofList m.name)
  | _ => none

end Directive

namespace Scan

/-! ## Sections in the order of lines -/

/-- The titles of the sections that directives open. -/
def titles (ds : List Numbered) : List String := ds.filterMap fun d => d.2.title?

/-- The title of the section that is open behind directives. -/
def titleAt (past : List Numbered) : String := (titles past).getLast?.getD untitled

/-- The directives declare the name for the first time between `before` and `after`. -/
def FirstDeclared (name : String) (past before after : List Numbered) : Prop :=
  ∃ d, past = before ++ d :: after ∧ d.2.paramName? = some name ∧
    ∀ e ∈ before, e.2.paramName? ≠ some name

/-- The section at an index lists the name that was declared behind `before`, and the directives
in `after` open the sections behind it. -/
structure Lists (name : String) (before after : List Numbered) (sections : List Section) (i : Nat)
    (s : Section) : Prop where
  at_index : sections[i]? = some s
  listed : name ∈ s.params
  title : s.title = titleAt before
  behind : (sections.map (·.title)).drop (i + 1) = titles after

variable {past : List Numbered} {name : String} {sections : List Section}

theorem Lists.lt_length {before after : List Numbered} {i : Nat} {s : Section}
    (h : Lists name before after sections i s) : i < sections.length :=
  (List.getElem?_eq_some_iff.mp h.at_index).1

theorem titles_append (ds ds' : List Numbered) : titles (ds ++ ds') = titles ds ++ titles ds' :=
  List.filterMap_append

theorem titles_concat_of_none {d : Numbered} (h : d.2.title? = none) (ds : List Numbered) :
    titles (ds ++ [d]) = titles ds := by
  have hnone : titles [d] = [] := List.filterMap_cons_none h
  rw [titles_append, hnone, List.append_nil]

theorem FirstDeclared.concat {before after : List Numbered}
    (h : FirstDeclared name past before after) (d : Numbered) :
    FirstDeclared name (past ++ [d]) before (after ++ [d]) := by
  obtain ⟨e, rfl, he, hbefore⟩ := h
  exact ⟨e, by rw [List.append_assoc]; rfl, he, hbefore⟩

/-- A parameter that is added to the last section leaves the others where they are. -/
theorem Lists.adding {before after : List Numbered} {front : List Section} {last s : Section}
    {i : Nat} (h : Lists name before after (front ++ [last]) i s) (d : Numbered)
    (hd : d.2.title? = none) (added : String) :
    ∃ s', Lists name before (after ++ [d]) (front ++ [last.adding added]) i s' := by
  have htitles : (front ++ [last.adding added]).map Section.title =
      (front ++ [last]).map Section.title := by
    rw [List.map_append, List.map_append]
    rfl
  have hbehind : ((front ++ [last.adding added]).map Section.title).drop (i + 1) =
      titles (after ++ [d]) := by
    rw [titles_concat_of_none hd, ← h.behind, htitles]
  have hat := h.at_index
  rcases Nat.lt_or_ge i front.length with hi | hi
  · refine ⟨s, { h with at_index := ?_, behind := hbehind }⟩
    rw [List.getElem?_append_left hi] at hat ⊢
    exact hat
  · have hlength := h.lt_length
    rw [List.length_append, List.length_singleton] at hlength
    obtain rfl : i = front.length := by omega
    rw [List.getElem?_concat_length] at hat
    cases hat
    exact ⟨last.adding added,
      { at_index := List.getElem?_concat_length, listed := List.mem_append_left _ h.listed,
        title := h.title, behind := hbehind }⟩

theorem register_of_mem (h : name ∈ listed sections) : register name sections = sections := by
  obtain ⟨s, hs, hname⟩ := List.mem_flatMap.mp h
  exact if_pos (List.any_eq_true.mpr ⟨s, hs, by simpa using hname⟩)

theorem register_of_not_mem (h : name ∉ listed sections) :
    register name sections = addToLast name sections := by
  refine if_neg fun hlisted => h ?_
  obtain ⟨s, hs, hname⟩ := List.any_eq_true.mp hlisted
  exact List.mem_flatMap.mpr ⟨s, hs, List.contains_iff_mem.mp hname⟩

/-- Only the lines of sections and parameters change the sections. -/
theorem sections_apply (s : State) (n : Nat) (directive : Directive) :
    (apply s n directive).scan.sections =
      match directive with
      | .section title => s.scan.sections ++ [⟨String.ofList title, []⟩]
      | .param m => register (String.ofList m.name) s.scan.sections
      | _ => s.scan.sections := by
  cases directive with
  | «section» title => rfl
  | typedef name description => rfl
  | enum base name description => rfl
  | param m => rfl
  | value token => rw [apply_value]
  | field m => rw [apply_field]

/-! ## What directives leave -/

/-- The sections behind directives. -/
structure Sectioned (past : List Numbered) (sections : List Section) : Prop where
  none_open : sections = [] → titles past = []
  last_title : ∀ s ∈ sections.getLast?, s.title = titleAt past
  mem_listed : ∀ name, name ∈ listed sections ↔ ∃ d ∈ past, d.2.paramName? = some name
  nodup : (listed sections).Nodup
  placed : ∀ name ∈ listed sections, ∃ before after i s,
    FirstDeclared name past before after ∧ Lists name before after sections i s

namespace Sectioned

theorem empty : Sectioned [] [] where
  none_open := fun _ => rfl
  last_title := by simp
  mem_listed := by simp [listed]
  nodup := List.nodup_nil
  placed := fun _ h => by cases h

/-- A directive for neither a section nor a new parameter changes nothing. -/
theorem idle (h : Sectioned past sections) {d : Numbered} (htitle : d.2.title? = none)
    (hparam : ∀ name, d.2.paramName? = some name → name ∈ listed sections) :
    Sectioned (past ++ [d]) sections where
  none_open := fun hnil => by rw [titles_concat_of_none htitle, h.none_open hnil]
  last_title := fun s hs => by rw [titleAt, titles_concat_of_none htitle]; exact h.last_title s hs
  mem_listed := by
    intro name
    rw [h.mem_listed]
    constructor
    · rintro ⟨e, he, hname⟩
      exact ⟨e, List.mem_append_left _ he, hname⟩
    · rintro ⟨e, he, hname⟩
      rcases List.mem_append.mp he with hold | hnew
      · exact ⟨e, hold, hname⟩
      · rw [List.mem_singleton.mp hnew] at hname
        exact (h.mem_listed name).mp (hparam name hname)
  nodup := h.nodup
  placed := by
    intro name hname
    obtain ⟨before, after, i, s, hfirst, hlists⟩ := h.placed name hname
    refine ⟨before, after ++ [d], i, s, hfirst.concat d, { hlists with behind := ?_ }⟩
    rw [titles_concat_of_none htitle, hlists.behind]

theorem «section» (h : Sectioned past sections) (n : Nat) (title : List Char) :
    Sectioned (past ++ [(n, .section title)]) (sections ++ [⟨String.ofList title, []⟩]) where
  none_open := fun hnil => absurd hnil (by simp)
  last_title := by
    intro s hs
    rw [List.getLast?_concat] at hs
    have htitles : titles (past ++ [(n, .section title)]) = titles past ++ [String.ofList title] :=
      titles_append _ _
    rw [titleAt, htitles, List.getLast?_concat, ← Option.some.inj hs]
    rfl
  mem_listed := by
    intro name
    simp only [listed, List.flatMap_append, List.flatMap_singleton, List.append_nil]
    rw [← listed, h.mem_listed]
    simp [Directive.paramName?, or_and_right, exists_or]
  nodup := by
    simpa [listed] using h.nodup
  placed := by
    intro name hname
    have hold : name ∈ listed sections := by simpa [listed] using hname
    obtain ⟨before, after, i, s, hfirst, hlists⟩ := h.placed name hold
    refine ⟨before, _, i, s, hfirst.concat _, { hlists with at_index := ?_, behind := ?_ }⟩
    · rw [List.getElem?_append_left hlists.lt_length]
      exact hlists.at_index
    · have hlength : i + 1 ≤ (sections.map (·.title)).length := by
        rw [List.length_map]
        exact hlists.lt_length
      rw [List.map_append, List.drop_append_of_le_length hlength, hlists.behind, titles_append]
      rfl

theorem first (h : Sectioned past []) (n : Nat) (m : Member) :
    Sectioned (past ++ [(n, .param m)]) [⟨untitled, [String.ofList m.name]⟩] where
  none_open := fun hnil => absurd hnil (by simp)
  last_title := by
    intro s hs
    rw [titleAt, titles_concat_of_none rfl, h.none_open rfl, ← Option.some.inj hs]
    rfl
  mem_listed := by
    intro name
    have hpast : ¬ ∃ d ∈ past, d.2.paramName? = some name :=
      fun hmem => List.not_mem_nil ((h.mem_listed name).mpr hmem)
    simp only [List.mem_append, or_and_right, exists_or, hpast, false_or]
    simp [listed, Directive.paramName?, eq_comm]
  nodup := List.nodup_singleton _
  placed := by
    intro name hname
    have heq : name = String.ofList m.name := by simpa [listed] using hname
    refine ⟨past, [], 0, _, ⟨(n, .param m), rfl, congrArg some heq.symm, fun e he hdeclared => ?_⟩,
      { at_index := rfl, listed := by simpa [listed] using hname, title := ?_, behind := rfl }⟩
    · exact List.not_mem_nil ((h.mem_listed name).mpr ⟨e, he, hdeclared⟩)
    · rw [titleAt, h.none_open rfl]
      rfl

theorem next {front : List Section} {last : Section} (h : Sectioned past (front ++ [last]))
    (n : Nat) {m : Member} (hnew : String.ofList m.name ∉ listed (front ++ [last])) :
    Sectioned (past ++ [(n, .param m)]) (front ++ [last.adding (String.ofList m.name)]) where
  none_open := fun hnil => absurd hnil (by simp)
  last_title := by
    intro s hs
    rw [List.getLast?_concat] at hs
    rw [titleAt, titles_concat_of_none rfl, ← Option.some.inj hs]
    exact h.last_title last (by simp)
  mem_listed := by
    intro name
    rw [← addToLast_concat, listed_addToLast, List.mem_append, h.mem_listed]
    simp [Directive.paramName?, or_and_right, exists_or, eq_comm]
  nodup := by
    rw [← addToLast_concat, listed_addToLast]
    exact Keyed.nodup_append_singleton_iff.mpr ⟨hnew, h.nodup⟩
  placed := by
    intro name hname
    rw [← addToLast_concat, listed_addToLast, List.mem_append, List.mem_singleton] at hname
    rcases hname with hold | rfl
    · obtain ⟨before, after, i, s, hfirst, hlists⟩ := h.placed name hold
      obtain ⟨s', hlists'⟩ := hlists.adding (n, .param m) rfl (String.ofList m.name)
      exact ⟨before, _, i, s', hfirst.concat _, hlists'⟩
    · refine ⟨past, [], front.length, _, ⟨(n, .param m), rfl, rfl, fun e he hdeclared => ?_⟩,
        { at_index := List.getElem?_concat_length, listed := by simp [Section.adding],
          title := h.last_title last (by simp), behind := List.drop_eq_nil_of_le (by simp) }⟩
      exact hnew ((h.mem_listed _).mpr ⟨e, he, hdeclared⟩)

/-- A directive keeps the sections in order. -/
theorem apply {s : State} (h : Sectioned past s.scan.sections) (d : Numbered) :
    Sectioned (past ++ [d]) (Scan.apply s d.1 d.2).scan.sections := by
  rw [sections_apply]
  obtain ⟨n, directive⟩ := d
  cases directive with
  | «section» title => exact h.section n title
  | typedef name description => exact h.idle rfl (fun _ h => by cases h)
  | enum base name description => exact h.idle rfl (fun _ h => by cases h)
  | value token => exact h.idle rfl (fun _ h => by cases h)
  | field m => exact h.idle rfl (fun _ h => by cases h)
  | param m =>
      dsimp only
      by_cases hlisted : String.ofList m.name ∈ listed s.scan.sections
      · rw [register_of_mem hlisted]
        exact h.idle rfl (fun _ hname => Option.some.inj hname ▸ hlisted)
      · rw [register_of_not_mem hlisted]
        rcases List.eq_nil_or_concat s.scan.sections with hnil | ⟨front, last, hlast⟩
        · rw [hnil] at h ⊢
          exact h.first n m
        · rw [hlast, List.concat_eq_append] at h hlisted ⊢
          rw [addToLast_concat]
          exact h.next n hlisted

end Sectioned

/-- The sections of a text are those of its directives. -/
theorem sectioned_ofText (text : List Char) :
    Sectioned (directives 1 (Text.lines text)) (ofText text).sections :=
  past_induction (motive := fun past s => Sectioned past s.scan.sections) .empty
    (fun d _ h => h.apply d) (Text.lines text)

example :
    (ofText "## @param {int} a\n## @section B\n## @param {int} a\n## @param {int} b".toList).sections =
      [⟨"Parameters", ["a"]⟩, ⟨"B", ["b"]⟩] := by decide

end Scan

end AnnotatedValues.Annotation
