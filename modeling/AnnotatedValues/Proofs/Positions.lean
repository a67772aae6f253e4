import AnnotatedValues.Proofs.Graph.Samples
import AnnotatedValues.Proofs.Walk

/-!
# Positions of problems

Validation reports the keys at the top that are no parameter's, and the keys of
objects in structs that are none of their fields': each such position once, from
the first to the last.
-/

namespace AnnotatedValues

/-- The problem that a position has: at the top no parameter has the key, and further down no
field. -/
def Position.issue : Position → Issue
  | [.key name] => .unknownParameter name
  | .key name :: p => .undeclaredField (textFrom name p)
  | p => .undeclaredField (textFrom "" p)

namespace Resolver

open Position

variable {r : Resolver}

/-! ## Keys that are not declared -/

/-- A position inside a value of a type where an object that holds a struct has a key that is none
of its fields'. -/
inductive Undeclared (r : Resolver) : Resolved → Document → Position → Prop where
  | here {type : Resolved} {ref : StructRef} {entries : List (String × Document)} {key : String}
      {value : Document} (htype : type.pointee = .struct ref) (hentry : (key, value) ∈ entries)
      (hfield : r.graph.field? ref.key key = none) : Undeclared r type (.object entries) [.key key]
  | field {type fieldType : Resolved} {ref : StructRef} {entries : List (String × Document)}
      {key : String} {value : Document} {p : Position} (htype : type.pointee = .struct ref)
      (hentry : (key, value) ∈ entries) (hdeclared : r.graph.HasMember (.field ref.key key))
      (hfield : r.resolveSlot (.field ref.key key) = .ok fieldType)
      (h : Undeclared r fieldType value p) : Undeclared r type (.object entries) (.key key :: p)
  | element {type elem : Resolved} {entries : List (String × Document)} {key : String}
      {value : Document} {p : Position} (htype : type.pointee = .map elem)
      (hentry : (key, value) ∈ entries) (h : Undeclared r elem value p) :
      Undeclared r type (.object entries) (.key key :: p)
  | item {type elem : Resolved} {items : List Document} {i : Nat} {item : Document} {p : Position}
      (htype : type.pointee = .array elem) (hitem : items[i]? = some item)
      (h : Undeclared r elem item p) : Undeclared r type (.array items) (.index i :: p)

theorem slotOf?_some_eq_none_iff {g : TypeGraph} {owner name : String} :
    g.slotOf? (some owner) name = none ↔ g.field? owner name = none := by
  rw [TypeGraph.slotOf?, ite_eq_right_iff, ← Option.isNone_iff_eq_none (o := g.field? owner name)]
  cases g.field? owner name <;> simp

theorem undeclared_iff_foundIn {type : Resolved} {d : Document} {p : Position} :
    r.Undeclared type d p ↔ r.FoundIn (· = none) type d p := by
  constructor
  · intro h
    induction h with
    | here htype hentry hfield =>
        exact .here htype hentry (slotOf?_some_eq_none_iff.mpr hfield)
    | field htype hentry hdeclared hfield _ ih =>
        have hslot := TypeGraph.slotOf?_some_eq_some_iff.mpr ⟨rfl, hdeclared⟩
        exact .field htype hentry hslot hfield ih
    | element htype hentry _ ih => exact .element htype hentry ih
    | item htype hitem _ ih => exact .item htype hitem ih
  · intro h
    induction h with
    | here htype hentry hslot =>
        exact .here htype hentry (slotOf?_some_eq_none_iff.mp hslot)
    | field htype hentry hslot hfield _ ih =>
        obtain ⟨rfl, hdeclared⟩ := TypeGraph.slotOf?_some_eq_some_iff.mp hslot
        exact .field htype hentry hdeclared hfield ih
    | element htype hentry _ ih => exact .element htype hentry ih
    | item htype hitem _ ih => exact .item htype hitem ih

/-- A position in a values document of a key at the top that is no parameter's name, or of one inside
a parameter's value that is not declared. -/
inductive Offends (r : Resolver) (values : Document) : Position → Prop where
  | unknown {key : String} {value : Document} (hentry : (key, value) ∈ values.entries)
      (hparam : ∀ param ∈ r.graph.params, r.graph.nameOf param ≠ key) : Offends r values [.key key]
  | inside {param : String} {value : Document} {type : Resolved} {p : Position}
      (hparam : param ∈ r.graph.params) (hentry : (r.graph.nameOf param, value) ∈ values.entries)
      (htype : r.resolveSlot (.node param) = .ok type) (h : r.Undeclared type value p) :
      Offends r values (.key (r.graph.nameOf param) :: p)

theorem param?_eq_none_iff (hg : r.graph.WellFormed) {key : String} :
    r.graph.param? key = none ↔ ∀ param ∈ r.graph.params, r.graph.nameOf param ≠ key := by
  constructor
  · rintro hnone param hparam rfl
    exact absurd (hnone.symm.trans (hg.param?_nameOf hparam)) (by simp)
  · intro hnone
    rw [Option.eq_none_iff_forall_ne_some]
    intro param hparam
    exact hnone param (hg.hasMember_of_param? hparam) (TypeGraph.nameOf_of_param? hparam)

theorem offends_iff (hg : r.graph.WellFormed) {values : Document} {p : Position} :
    r.Offends values p ↔ r.Found (· = none) values p := by
  constructor
  · rintro (@⟨key, value, hentry, hparam⟩ | @⟨param, value, type, rest, hparam, hentry, htype, h⟩)
    · refine ⟨_, hentry, _, rfl, .here ?_⟩
      rw [TypeGraph.slotOf?, (param?_eq_none_iff hg).mpr hparam]
      rfl
    · refine ⟨_, hentry, _, rfl, .inside ?_ htype (undeclared_iff_foundIn.mp h)⟩
      rw [TypeGraph.slotOf?, hg.param?_nameOf hparam]
      rfl
  · rintro ⟨⟨key, value⟩, hentry, rest, rfl, h⟩
    cases h with
    | here hslot =>
        rw [TypeGraph.slotOf?, Option.map_eq_none_iff, param?_eq_none_iff hg] at hslot
        exact .unknown hentry hslot
    | inside hslot htype h =>
        obtain ⟨param, hparam, rfl⟩ := Option.map_eq_some_iff.mp hslot
        obtain rfl := TypeGraph.nameOf_of_param? hparam
        exact .inside (hg.hasMember_of_param? hparam) hentry htype (undeclared_iff_foundIn.mpr h)

/-- Only an entry without a slot is itself a problem, if types without a schema are left out. -/
theorem filter_ownIssue?_eq_some_iff {missing issue : Issue} {path : String} {slot? : Option Slot}
    (hmissing : missing.schemaless? = none) :
    (r.ownIssue? missing path slot?).filter (·.schemaless?.isNone) = some issue ↔
      slot? = none ∧ issue = missing := by
  unfold ownIssue?
  cases slot? with
  | none =>
      rw [Option.filter_some, hmissing]
      simp [eq_comm]
  | some slot =>
      dsimp only
      cases r.resolveSlot slot <;> simp [Option.filter_some, Issue.schemaless?]

/-- The problems of a document are its keys that offend. -/
theorem lists_checkParam (hr : r.Complete) {values : Document} (hvalues : values.Distinct) :
    Lists issue (r.Offends values) (values.sorted.entries.flatMap r.checkParam) := by
  have hkept : (values.sorted.entries.flatMap r.checkParam).filter (·.schemaless?.isNone) =
      values.sorted.entries.flatMap r.checkParam := by
    refine List.filter_eq_self.mpr fun issue hissue => ?_
    obtain ⟨entry, -, hmem⟩ := List.mem_flatMap.mp hissue
    cases issue with
    | noSchema name place => exact absurd hmem (noSchema_not_mem_checkParam hr entry)
    | unknownParameter name => rfl
    | undeclaredField path => rfl
  rw [← hkept]
  refine (lists_found issue hvalues
    (fun _ _ _ => filter_ownIssue?_eq_some_iff rfl)
    (fun _ _ _ => filter_ownIssue?_eq_some_iff rfl) fun name p hp => ?_).congr
    (fun p => (offends_iff hr.wellFormed).symm) fun _ _ => rfl
  cases p with
  | nil => exact absurd rfl hp
  | cons => rfl

theorem dropRepeated_eq_self {issues : List Issue} (h : ∀ name path, .noSchema name path ∉ issues)
    (seen : List String) : dropRepeated seen issues = issues := by
  induction issues generalizing seen with
  | nil => rfl
  | cons issue issues ih =>
      have hrest := ih (fun name path hmem => h name path (List.mem_cons_of_mem _ hmem)) seen
      cases issue with
      | unknownParameter name => rw [dropRepeated, hrest]; simp
      | undeclaredField path => rw [dropRepeated, hrest]; simp
      | noSchema name path => exact absurd List.mem_cons_self (h name path)

theorem Complete.issues_eq (hr : r.Complete) (values : Document) :
    r.issues values = values.sorted.entries.flatMap r.checkParam := by
  refine dropRepeated_eq_self (fun name path hmem => ?_) []
  obtain ⟨entry, -, hmem⟩ := List.mem_flatMap.mp hmem
  exact noSchema_not_mem_checkParam hr entry hmem

theorem validate_eq (values : Document) :
    r.validate values =
      if r.issues values = [] then .ok () else .error (.validation (r.issues values)) := by
  rw [validate]
  cases r.issues values with
  | nil => rfl
  | cons issue issues => rfl

/-- Validation reports exactly the keys that offend, in the order of their positions, and the order
in which a document has its entries is nothing to it. -/
theorem validate_reports_offending_keys {g : TypeGraph} (hg : g.Built)
    (hdefined : (ofGraph g).undefinedTypes = []) {values : Document} (hvalues : values.Distinct) :
    ∃ positions : List Position,
      positions.Pairwise Earlier ∧ positions.Nodup ∧
      (∀ p, p ∈ positions ↔ (ofGraph g).Offends values p) ∧
      (ofGraph g).validate values =
        (if positions = [] then .ok () else .error (.validation (positions.map issue))) ∧
      ((ofGraph g).validate values = .ok () ↔ ∀ p, ¬ (ofGraph g).Offends values p) ∧
      ∀ other, values.Rearranged other →
        (ofGraph g).validate other = (ofGraph g).validate values := by
  have hr : (ofGraph g).Complete := ⟨hg.wellFormed, hdefined⟩
  obtain ⟨positions, hordered, hmem, hlists⟩ := lists_checkParam hr hvalues
  have hvalidate : (ofGraph g).validate values =
      if positions = [] then .ok () else .error (.validation (positions.map issue)) := by
    simp only [validate_eq, hr.issues_eq, hlists, List.map_eq_nil_iff]
  refine ⟨positions, hordered, hordered.imp Earlier.ne, hmem, hvalidate, ?_, fun other hother => ?_⟩
  · simp only [← hmem, ← List.eq_nil_iff_forall_not_mem]
    rw [hvalidate]
    split
    · rename_i hnil
      exact iff_of_true rfl hnil
    · rename_i hnil
      exact iff_of_false nofun hnil
  · rw [validate, validate, issues, issues, (hother.distinct_and_sorted hvalues).2]

/-- A parameter that holds arrays of structs in a map. -/
def poolsRows : List Annotation.Row :=
  [⟨.param, ["pools"], "map[string][]Gpu", [], "", "", false, 1⟩,
    ⟨.field, ["Gpu", "name"], "string", [], "", "", false, 2⟩]

/-- A key in another case than the parameter's name, and two in structs that do not declare them. -/
def poolsText : String :=
  "Pools:\npools:\n  a:\n  - Name:\n  b:\n  - name:\n  - size:\n"

def poolsEntries : List (String × Document) :=
  [("Pools", .null), ("pools", .object
    [("a", .array [.object [("Name", .null)]]),
      ("b", .array [.object [("name", .null)], .object [("size", .null)]])])]

def poolsIssues : List Issue :=
  [.unknownParameter "Pools", .undeclaredField "pools.a[0].Name", .undeclaredField "pools.b[1].size"]

theorem sorted_poolsEntries :
    (Document.object poolsEntries).sorted = .object poolsEntries := by
  simp only [poolsEntries, Document.sorted, Document.sortedValues, Document.sortedItems,
    Document.sortEntries, List.mergeSort_singleton]
  rw [List.mergeSort_of_pairwise (by decide), List.mergeSort_of_pairwise (by decide)]

theorem validate_poolsEntries :
    ∃ g, ∃ positions : List Position, TypeGraph.build poolsRows = .ok g ∧
      (∀ p, p ∈ positions ↔ (ofGraph g).Offends (.object poolsEntries) p) ∧
      positions.map issue = poolsIssues ∧
      (ofGraph g).validate (.object poolsEntries.reverse) = .error (.validation poolsIssues) := by
  have hbuild : ((TypeGraph.build poolsRows).toOption.map fun g =>
      ((ofGraph g).undefinedTypes, poolsEntries.flatMap (ofGraph g).checkParam)) =
      some ([], poolsIssues) := by
    decide +kernel
  have hread : (Document.ofText poolsText).toOption = some (.object poolsEntries) := by
    unfold Document.ofText poolsText
    rw [String.toList_ofList]
    decide +kernel
  obtain ⟨g, hg, hproperties⟩ := Fallible.map_toOption_eq_some_iff.mp hbuild
  obtain ⟨hdefined, hissues⟩ := Prod.mk.inj hproperties
  have hvalues := Document.distinct_of_ofText (Fallible.toOption_eq_some_iff.mp hread)
  have hr : (ofGraph g).Complete := ⟨(TypeGraph.Built.rows hg).wellFormed, hdefined⟩
  have hvalidate : (ofGraph g).validate (.object poolsEntries) = .error (.validation poolsIssues) := by
    rw [validate_eq, hr.issues_eq, sorted_poolsEntries, Document.entries, hissues]
    exact if_neg (List.cons_ne_nil _ _)
  obtain ⟨positions, -, -, hmem, hpositions, -, hrearranged⟩ :=
    validate_reports_offending_keys (.rows hg) hdefined hvalues
  refine ⟨g, positions, hg, hmem, ?_,
    (hrearranged _ (.entries (List.reverse_perm poolsEntries).symm)).trans hvalidate⟩
  rw [hvalidate] at hpositions
  split at hpositions
  · cases hpositions
  · exact (Error.validation.inj (Except.error.inj hpositions)).symm

end Resolver

end AnnotatedValues
