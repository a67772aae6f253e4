import AnnotatedValues.Error
import AnnotatedValues.Resolved.Resolver

/-! # Checking a values document

Every key at the top must be a parameter's, and every key of an object that holds a struct must be
one of its fields'. Arrays and maps are checked in their elements, pointers are looked through, and
all other types admit anything. All problems are reported, in the order of the keys; a type without
a schema is reported once. -/
namespace AnnotatedValues.Resolver

def indexedPath (path : String) (i : Nat) : String :=
  path ++ "[" ++ String.ofList (Decimal.natText i) ++ "]"

def keyedPath (path key : String) : String := path ++ "." ++ key

mutual

/-- The problems of a value of the given type. -/
def check (r : Resolver) (type : Resolved) (path : String) : Document → List Issue
  | .array items =>
    match type.pointee with
    | .array elem => checkItems r elem path 0 items
    | _ => []
  | .object entries =>
    match type.pointee with
    | .map elem => checkElements r elem path entries
    | .struct ref => checkFields r ref.key path entries
    | _ => []
  | .null | .bool _ | .number _ | .string _ => []
termination_by structural d => d

/-- The problems of the items of an array, the first of which has the number `i`. -/
def checkItems (r : Resolver) (type : Resolved) (path : String) (i : Nat) :
    List Document → List Issue
  | [] => []
  | item :: items =>
    check r type (indexedPath path i) item ++ checkItems r type path (i + 1) items
termination_by structural items => items

/-- The problems of the values of a map. -/
def checkElements (r : Resolver) (type : Resolved) (path : String) :
    List (String × Document) → List Issue
  | [] => []
  | (key, value) :: entries =>
    check r type (keyedPath path key) value ++ checkElements r type path entries
termination_by structural entries => entries

/-- The problems of an object that holds the struct `owner`. -/
def checkFields (r : Resolver) (owner path : String) : List (String × Document) → List Issue
  | [] => []
  | (key, value) :: entries =>
    (match r.graph.field? owner key with
      | some _ =>
        match r.resolveSlot (.field owner key) with
        | .ok type => check r type (keyedPath path key) value
        | .error ⟨name⟩ => [.noSchema name (keyedPath path key)]
      | none => [.undeclaredField (keyedPath path key)]) ++ checkFields r owner path entries
termination_by structural entries => entries

end

/-- The problems of a value of a parameter. -/
def checkParam (r : Resolver) (entry : String × Document) : List Issue :=
  match r.graph.param? entry.1 with
  | some key =>
    match r.resolveSlot (.node key) with
    | .ok type => r.check type entry.1 entry.2
    | .error ⟨name⟩ => [.noSchema name entry.1]
  | none => [.unknownParameter entry.1]

/-- The issues without those that repeat that a type of a name in `seen` has no schema. -/
def dropRepeated (seen : List String) : List Issue → List Issue
  | [] => []
  | .noSchema name path :: issues =>
    if seen.contains name then dropRepeated seen issues
    else .noSchema name path :: dropRepeated (name :: seen) issues
  | issue :: issues => issue :: dropRepeated seen issues

/-- All problems of a values document. -/
def issues (r : Resolver) (values : Document) : List Issue :=
  dropRepeated [] (values.sorted.entries.flatMap r.checkParam)

def validate (r : Resolver) (values : Document) : Except Error Unit :=
  match r.issues values with
  | [] => .ok ()
  | issues => .error (.validation issues)

end AnnotatedValues.Resolver
