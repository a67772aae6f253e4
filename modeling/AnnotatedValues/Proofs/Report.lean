import AnnotatedValues.Proofs.Validation

/-!
# Reports in one walk

The walk through a values document can carry the names that have been reported
to have no schema, and leave out a problem as soon as it comes to it again.  At
any point it has added what the problems up to there add one after another, so
the report at the end is that of all problems without the repeated ones.
-/

namespace AnnotatedValues

/-- The problems so far, and the names that have been reported to have no schema. -/
structure Report where
  issues : List Issue
  reported : List String

namespace Report

open Resolver (dropRepeated indexedPath keyedPath)

def add (v : Report) : Issue → Report
  | .noSchema name path =>
    if v.reported.contains name then v
    else ⟨v.issues ++ [.noSchema name path], name :: v.reported⟩
  | issue => { v with issues := v.issues ++ [issue] }

mutual

/-- The report behind a value of the given type. -/
def check (r : Resolver) (type : Resolved) (path : String) (v : Report) : Document → Report
  | .array items =>
    match type.pointee with
    | .array elem => v.checkItems r elem path 0 items
    | _ => v
  | .object entries =>
    match type.pointee with
    | .map elem => v.checkElements r elem path entries
    | .struct ref => v.checkFields r ref.key path entries
    | _ => v
  | .null | .bool _ | .number _ | .string _ => v
termination_by structural d => d

def checkItems (r : Resolver) (type : Resolved) (path : String) (i : Nat) (v : Report) :
    List Document → Report
  | [] => v
  | item :: items =>
    (v.check r type (indexedPath path i) item).checkItems r type path (i + 1) items
termination_by structural items => items

def checkElements (r : Resolver) (type : Resolved) (path : String) (v : Report) :
    List (String × Document) → Report
  | [] => v
  | (key, value) :: entries =>
    (v.check r type (keyedPath path key) value).checkElements r type path entries
termination_by structural entries => entries

def checkFields (r : Resolver) (owner path : String) (v : Report) :
    List (String × Document) → Report
  | [] => v
  | (key, value) :: entries =>
    let v :=
      match r.graph.field? owner key with
      | some _ =>
        match r.resolveSlot (.field owner key) with
        | .ok type => v.check r type (keyedPath path key) value
        | .error ⟨name⟩ => v.add (.noSchema name (keyedPath path key))
      | none => v.add (.undeclaredField (keyedPath path key))
    v.checkFields r owner path entries
termination_by structural entries => entries

end

def checkParam (r : Resolver) (v : Report) (entry : String × Document) : Report :=
  match r.graph.param? entry.1 with
  | some key =>
    match r.resolveSlot (.node key) with
    | .ok type => v.check r type entry.1 entry.2
    | .error ⟨name⟩ => v.add (.noSchema name entry.1)
  | none => v.add (.unknownParameter entry.1)

def ofValues (r : Resolver) (values : Document) : Report :=
  values.sorted.entries.foldl (checkParam r) ⟨[], []⟩

/-! ## Problems one after another -/

def addAll (v : Report) (issues : List Issue) : Report := issues.foldl add v

theorem addAll_append (v : Report) (issues more : List Issue) :
    v.addAll (issues ++ more) = (v.addAll issues).addAll more :=
  List.foldl_append

theorem issues_addAll (v : Report) (issues : List Issue) :
    (v.addAll issues).issues = v.issues ++ dropRepeated v.reported issues := by
  induction issues generalizing v with
  | nil => exact (List.append_nil _).symm
  | cons issue issues ih =>
      rw [addAll, List.foldl_cons, ← addAll, ih]
      cases issue with
      | unknownParameter key => exact List.append_assoc _ _ _
      | undeclaredField path => exact List.append_assoc _ _ _
      | noSchema name path =>
          rw [add, dropRepeated]
          split
          · rfl
          · exact List.append_assoc _ _ _

variable {r : Resolver}

mutual

/-- The walk adds the problems of a value, in their order. -/
theorem check_eq (type : Resolved) (path : String) (v : Report) :
    (d : Document) → v.check r type path d = v.addAll (r.check type path d)
  | .array items => by
      rw [check, Resolver.check]
      cases type.pointee with
      | array elem => exact checkItems_eq elem path 0 v items
      | _ => rfl
  | .object entries => by
      rw [check, Resolver.check]
      cases type.pointee with
      | map elem => exact checkElements_eq elem path v entries
      | struct ref => exact checkFields_eq ref.key path v entries
      | _ => rfl
  | .null => rfl
  | .bool _ => rfl
  | .number _ => rfl
  | .string _ => rfl
termination_by structural d => d

theorem checkItems_eq (type : Resolved) (path : String) (i : Nat) (v : Report) :
    (items : List Document) →
      v.checkItems r type path i items = v.addAll (r.checkItems type path i items)
  | [] => rfl
  | item :: items => by
      rw [checkItems, Resolver.checkItems, addAll_append, check_eq, checkItems_eq]
termination_by structural items => items

theorem checkElements_eq (type : Resolved) (path : String) (v : Report) :
    (entries : List (String × Document)) →
      v.checkElements r type path entries = v.addAll (r.checkElements type path entries)
  | [] => rfl
  | (key, value) :: entries => by
      rw [checkElements, Resolver.checkElements, addAll_append, check_eq, checkElements_eq]
termination_by structural entries => entries

theorem checkFields_eq (owner path : String) (v : Report) :
    (entries : List (String × Document)) →
      v.checkFields r owner path entries = v.addAll (r.checkFields owner path entries)
  | [] => rfl
  | (key, value) :: entries => by
      rw [checkFields, Resolver.checkFields, addAll_append, checkFields_eq]
      congr 1
      cases r.graph.field? owner key with
      | none => rfl
      | some field =>
          dsimp only
          cases r.resolveSlot (.field owner key) with
          | error e => rfl
          | ok type => exact check_eq type _ v value
termination_by structural entries => entries

end

theorem checkParam_eq (v : Report) (entry : String × Document) :
    checkParam r v entry = v.addAll (r.checkParam entry) := by
  unfold checkParam Resolver.checkParam
  cases r.graph.param? entry.1 with
  | none => rfl
  | some key =>
      dsimp only
      cases r.resolveSlot (.node key) with
      | error e => rfl
      | ok type => exact check_eq type _ v entry.2

/-- The report of a values document has the problems that are left without the repeated ones. -/
theorem issues_ofValues (r : Resolver) (values : Document) :
    (ofValues r values).issues = r.issues values := by
  have hall : ofValues r values =
      addAll ⟨[], []⟩ (values.sorted.entries.flatMap r.checkParam) := by
    rw [ofValues, addAll, List.foldl_flatMap]
    exact congrArg (List.foldl · _ _) (funext₂ checkParam_eq)
  rw [hall, issues_addAll]
  rfl

end Report

end AnnotatedValues
