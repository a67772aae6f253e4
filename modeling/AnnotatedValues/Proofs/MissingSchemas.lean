import AnnotatedValues.Proofs.Walk

/-!
# Types without a schema

A position in a values document lacks a schema if the validator comes there to
the value of a parameter or field whose type has an undefined name.  For each
name the first such position is reported and no other.  Names that differ in
letter case count as two here, although they are names of one type.
-/

namespace AnnotatedValues

/-- The path of a position from the top. -/
def Position.text : Position → String
  | .key name :: p => textFrom name p
  | p => textFrom "" p

namespace Resolver

open Position

variable {r : Resolver} {name : String} {values : Document}

/-- A position in a values document whose parameter or field has a type of an undefined name. -/
def Lacks (r : Resolver) (values : Document) (name : String) : Position → Prop :=
  r.Found (fun slot? => ∃ slot, slot? = some slot ∧ r.resolveSlot slot = .error ⟨name⟩) values

/-- The first of these positions. -/
def FirstLacks (r : Resolver) (values : Document) (name : String) (p : Position) : Prop :=
  r.Lacks values name p ∧ ∀ q, r.Lacks values name q → ¬ Earlier q p

/-! ## Before repetitions are dropped -/

theorem filter_ownIssue?_schemaless_iff {missing issue : Issue} {path : String}
    {slot? : Option Slot} (hmissing : missing.schemaless? = none) :
    (r.ownIssue? missing path slot?).filter (·.schemaless? == some name) = some issue ↔
      (∃ slot, slot? = some slot ∧ r.resolveSlot slot = .error ⟨name⟩) ∧
        issue = .noSchema name path := by
  unfold ownIssue?
  cases slot? with
  | none =>
      rw [Option.filter_some, hmissing]
      simp
  | some slot =>
      simp only [Option.some.injEq, exists_eq_left']
      cases r.resolveSlot slot with
      | ok type => simp
      | error e =>
          obtain ⟨other⟩ := e
          rw [Option.filter_some, Issue.schemaless?]
          by_cases hname : other = name
          · simp [hname, eq_comm]
          · simp [hname]

/-- The issues for a name are those of the positions that lack a schema. -/
theorem lists_lacks (r : Resolver) (name : String) (hvalues : values.Distinct) :
    Lists (fun p => .noSchema name p.text) (r.Lacks values name)
      ((values.sorted.entries.flatMap r.checkParam).filter (·.schemaless? == some name)) :=
  lists_found _ hvalues (fun _ _ _ => filter_ownIssue?_schemaless_iff rfl)
    (fun _ _ _ => filter_ownIssue?_schemaless_iff rfl) fun _ _ _ => rfl

/-! ## One issue for each name -/

/-- Of the issues for a name the first is kept, unless the name has been seen. -/
theorem filter_dropRepeated (seen : List String) (issues : List Issue) :
    (dropRepeated seen issues).filter (·.schemaless? == some name) =
      if name ∈ seen then [] else (issues.filter (·.schemaless? == some name)).take 1 := by
  induction issues generalizing seen with
  | nil => simp [dropRepeated]
  | cons issue issues ih =>
      cases issue with
      | unknownParameter key => simpa [dropRepeated, Issue.schemaless?] using ih seen
      | undeclaredField path => simpa [dropRepeated, Issue.schemaless?] using ih seen
      | noSchema other path =>
          by_cases hname : other = name
          · subst hname
            have hkeep : ∀ rest : List Issue,
                (Issue.noSchema other path :: rest).filter (·.schemaless? == some other) =
                  .noSchema other path :: rest.filter (·.schemaless? == some other) :=
              fun _ => List.filter_cons_of_pos (beq_self_eq_true (some other))
            rw [dropRepeated, hkeep, List.take_succ_cons, List.take_zero]
            split
            · rename_i hseen
              rw [List.contains_iff_mem] at hseen
              rw [ih, if_pos hseen, if_pos hseen]
            · rename_i hnew
              rw [List.contains_iff_mem] at hnew
              rw [hkeep, ih, if_pos List.mem_cons_self, if_neg hnew]
          · have hdrop : ∀ rest : List Issue,
                (Issue.noSchema other path :: rest).filter (·.schemaless? == some name) =
                  rest.filter (·.schemaless? == some name) :=
              fun _ => List.filter_cons_of_neg (by simpa [Issue.schemaless?] using hname)
            rw [dropRepeated, hdrop]
            split
            · exact ih seen
            · rw [hdrop, ih]
              simp [Ne.symm hname]

/-- The names of types that are reported to have no schema. -/
def schemalessNames (r : Resolver) (values : Document) : List String :=
  (r.issues values).filterMap Issue.schemaless?

theorem filter_issues (values : Document) :
    (r.issues values).filter (·.schemaless? == some name) =
      ((values.sorted.entries.flatMap r.checkParam).filter (·.schemaless? == some name)).take 1 := by
  rw [issues, filter_dropRepeated]
  exact if_neg List.not_mem_nil

theorem nodup_schemalessNames (r : Resolver) (values : Document) :
    (r.schemalessNames values).Nodup := by
  rw [List.nodup_iff_count_le_one]
  intro name
  rw [schemalessNames, List.count_filterMap, List.countP_eq_length_filter, filter_issues]
  exact List.length_take_le 1 _

theorem FirstLacks.iff_eq_head {p q : Position} {later : List Position}
    (hordered : (p :: later).Pairwise Earlier)
    (hmem : ∀ q, q ∈ p :: later ↔ r.Lacks values name q) : r.FirstLacks values name q ↔ q = p := by
  obtain ⟨hlater, -⟩ := List.pairwise_cons.mp hordered
  constructor
  · rintro ⟨hq, hfirst⟩
    rcases List.mem_cons.mp ((hmem q).mpr hq) with rfl | hmemLater
    · rfl
    · exact absurd (hlater q hmemLater) (hfirst p ((hmem p).mp List.mem_cons_self))
  · rintro rfl
    refine ⟨(hmem q).mp List.mem_cons_self, fun other hother hearlier => ?_⟩
    rcases List.mem_cons.mp ((hmem other).mpr hother) with rfl | hmemLater
    · exact hearlier.ne rfl
    · exact hearlier.asymm (hlater other hmemLater)

/-- For a name the first position that lacks a schema is reported. -/
theorem noSchema_mem_issues_iff (hvalues : values.Distinct) {path : String} :
    .noSchema name path ∈ r.issues values ↔ ∃ p, r.FirstLacks values name p ∧ path = p.text := by
  obtain ⟨positions, hordered, hmem, hissues⟩ := lists_lacks r name hvalues
  have hkept : .noSchema name path ∈ r.issues values ↔
      .noSchema name path ∈ (positions.map fun p => Issue.noSchema name p.text).take 1 := by
    rw [← hissues, ← filter_issues, List.mem_filter]
    exact (and_iff_left (beq_self_eq_true (some name))).symm
  rw [hkept]
  cases positions with
  | nil =>
      refine iff_of_false List.not_mem_nil ?_
      rintro ⟨p, ⟨hp, -⟩, -⟩
      exact List.not_mem_nil ((hmem p).mpr hp)
  | cons p later =>
      simp [FirstLacks.iff_eq_head hordered hmem]

theorem mem_schemalessNames_iff (hvalues : values.Distinct) :
    name ∈ r.schemalessNames values ↔ ∃ p, r.Lacks values name p := by
  obtain ⟨positions, -, hmem, hissues⟩ := lists_lacks r name hvalues
  have hmemIssues : name ∈ r.schemalessNames values ↔
      (r.issues values).filter (·.schemaless? == some name) ≠ [] := by
    simp [schemalessNames, List.filter_eq_nil_iff]
  rw [hmemIssues, filter_issues, hissues]
  simp only [← hmem]
  cases positions with
  | nil => simp
  | cons p later => simp

/-- No name is reported twice, each at the first position that lacks a schema for it; and no type is,
exactly if no two names of one type lack a schema. -/
theorem noSchema_reported_once (r : Resolver) (hvalues : values.Distinct) :
    (∀ name path, .noSchema name path ∈ r.issues values ↔
      ∃ p, r.FirstLacks values name p ∧ path = p.text) ∧
    (r.schemalessNames values).Nodup ∧
    (((r.schemalessNames values).map keyOf).Nodup ↔
      ∀ name other, (∃ p, r.Lacks values name p) → (∃ p, r.Lacks values other p) →
        keyOf name = keyOf other → name = other) := by
  refine ⟨fun _ _ => noSchema_mem_issues_iff hvalues, nodup_schemalessNames r values, ?_⟩
  rw [List.nodup_map_iff_inj_on (nodup_schemalessNames r values)]
  simp only [mem_schemalessNames_iff hvalues]
  exact ⟨fun h name other hname hother => h name hname other hother,
    fun h name hname other hother => h name other hname hother⟩

/-- A parameter that holds structs in an array, which have a field of an undefined type, and another
of that type. -/
def boxRows : List Annotation.Row :=
  [⟨.param, ["boxes"], "[]Box", [], "", "", false, 1⟩,
    ⟨.field, ["box", "label"], "*Ghost", [], "", "", false, 2⟩,
    ⟨.param, ["spare"], "map[string]Ghost", [], "", "", false, 3⟩]

def boxEntries : List (String × Document) :=
  [("boxes", .array [.object [("label", .null)], .object [("label", .null)]]), ("spare", .null)]

theorem sorted_boxEntries : (Document.object boxEntries).sorted = .object boxEntries := by
  simp only [boxEntries, Document.sorted, Document.sortedValues, Document.sortedItems,
    Document.sortEntries, List.mergeSort_singleton]
  rw [List.mergeSort_of_pairwise (by decide)]

theorem distinct_boxEntries : (Document.object boxEntries).Distinct := by
  have hbox : (Document.object [("label", .null)]).Distinct :=
    .object (List.nodup_singleton _) (List.forall_mem_singleton.mpr .null)
  refine .object (by decide) (List.forall_mem_cons.mpr ⟨?_, List.forall_mem_singleton.mpr .null⟩)
  exact .array (List.forall_mem_cons.mpr ⟨hbox, List.forall_mem_singleton.mpr hbox⟩)

/-- Only the first label is reported. -/
theorem noSchema_boxRows :
    ∃ g, TypeGraph.build boxRows = .ok g ∧
      (ofGraph g).issues (.object boxEntries) = [.noSchema "Ghost" "boxes[0].label"] ∧
      (∃ p, (ofGraph g).FirstLacks (.object boxEntries) "Ghost" p ∧ "boxes[0].label" = p.text) ∧
      ∀ other, (∃ p, (ofGraph g).Lacks (.object boxEntries) other p) →
        keyOf "Ghost" = keyOf other → "Ghost" = other := by
  have hbuild : ((TypeGraph.build boxRows).toOption.map fun g =>
      dropRepeated [] (boxEntries.flatMap (ofGraph g).checkParam)) =
      some [.noSchema "Ghost" "boxes[0].label"] := by
    decide +kernel
  obtain ⟨g, hg, hdropped⟩ := Fallible.map_toOption_eq_some_iff.mp hbuild
  have hissues : (ofGraph g).issues (.object boxEntries) =
      [.noSchema "Ghost" "boxes[0].label"] := by
    rw [issues, sorted_boxEntries]
    exact hdropped
  obtain ⟨hfirst, -, htypes⟩ := noSchema_reported_once (ofGraph g) distinct_boxEntries
  obtain ⟨p, hp, htext⟩ := (hfirst "Ghost" "boxes[0].label").mp (by simp [hissues])
  refine ⟨g, hg, hissues, ⟨p, hp, htext⟩, fun other hother hkey => ?_⟩
  refine htypes.mp ?_ "Ghost" other ⟨p, hp.1⟩ hother hkey
  simp [schemalessNames, hissues, Issue.schemaless?]

/-- Two parameters of one undefined type in different letter case. -/
def ghostRows : List Annotation.Row :=
  [⟨.param, ["a"], "Ghost", [], "", "", false, 1⟩, ⟨.param, ["b"], "ghost", [], "", "", false, 2⟩]

def ghostEntries : List (String × Document) :=
  [("a", .number (.int 1)), ("b", .number (.int 2))]

/-- Both are reported. -/
theorem noSchema_twice_ghostRows :
    ∃ g, TypeGraph.build ghostRows = .ok g ∧
      (ofGraph g).validate (.object ghostEntries) =
        .error (.validation [.noSchema "Ghost" "a", .noSchema "ghost" "b"]) ∧
      keyOf "Ghost" = keyOf "ghost" := by
  have hbuild : ((TypeGraph.build ghostRows).toOption.map fun g =>
      dropRepeated [] (ghostEntries.flatMap (ofGraph g).checkParam)) =
      some [.noSchema "Ghost" "a", .noSchema "ghost" "b"] := by
    decide +kernel
  obtain ⟨g, hg, hdropped⟩ := Fallible.map_toOption_eq_some_iff.mp hbuild
  have hsorted : (Document.object ghostEntries).sorted = .object ghostEntries := by
    simp only [ghostEntries, Document.sorted, Document.sortedValues, Document.sortEntries]
    rw [List.mergeSort_of_pairwise (by decide)]
  refine ⟨g, hg, ?_, by decide +kernel⟩
  rw [validate, issues, hsorted, Document.entries, hdropped]

end Resolver

end AnnotatedValues
