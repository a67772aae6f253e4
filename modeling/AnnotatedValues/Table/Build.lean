import AnnotatedValues.Annotation.Basic
import AnnotatedValues.Decimal.Text
import AnnotatedValues.Resolved.Resolver
import AnnotatedValues.Table.Basic
import AnnotatedValues.Table.Cell

/-! # Building parameter tables

A member has a row of its own, followed by those of the fields of the struct that it holds. The
elements of an array of structs are numbered as in the document, or stand for all of them if the
document has none; those of a map always stand for all. A struct is not listed inside its own
listing. -/
namespace AnnotatedValues

namespace Table

/-- A struct to list: the path and the value that it has in the document. -/
structure Listing where
  path : String
  owner : String
  value? : Option Document
  deriving Repr

/-- The listings of the items of an array, the first of which has the number `i`. -/
def itemListings (path owner : String) (i : Nat) : List Document → List Listing
  | [] => []
  | item :: items =>
    ⟨path ++ "[" ++ String.ofList (Decimal.natText i) ++ "]", owner, some item⟩ ::
      itemListings path owner (i + 1) items

def arrayListings (path owner : String) (value? : Option Document) : List Listing :=
  match value?.bind Document.items? with
  | some (item :: items) => itemListings path owner 0 (item :: items)
  | _ => [⟨path ++ "[i]", owner, none⟩]

/-- The structs listed below a member of the type. -/
def listings (type : Resolved) (path : String) (value? : Option Document) : List Listing :=
  match type.stripPointer with
  | .struct ref => [⟨path, ref.key, value?⟩]
  | .array elem =>
    match elem.stripPointer.struct? with
    | some ref => arrayListings path ref.key value?
    | none => []
  | .map elem =>
    match elem.stripPointer.struct? with
    | some ref => [⟨path ++ "[name]", ref.key, none⟩]
    | none => []
  | _ => []

/-- The rows of a member, given those of the structs listed below it. Null counts as no value. -/
def memberRows (r : Resolver) (structRows : Listing → Except Unresolved (List Row))
    (path : String) (slot : Slot) (value? : Option Document) : Except Unresolved (List Row) := do
  let member := (r.graph.member? slot).getD .blank
  let type ← r.resolveSlot slot
  let value? := value?.filter fun value => !value.isNull
  let below ← (listings type path value?).mapM structRows
  return ⟨path, member.comment, typeText type, valueText type value? member.annotated?⟩ ::
    below.flatten

/-- The rows of the fields of a struct inside the listings of those in `path`, of which there can
be at most as many as there are nodes. -/
def structRows (r : Resolver) : (fuel : Nat) → (path : List String) → Listing →
    Except Unresolved (List Row)
  | 0, _, _ => .ok []
  | fuel + 1, path, listing =>
    if path.contains listing.owner then .ok []
    else do
      let rows ← (r.graph.fieldsOf listing.owner).mapM fun f =>
        memberRows r (structRows r fuel (listing.owner :: path))
          (listing.path ++ "." ++ f.name) (.field listing.owner f.name)
          (listing.value?.bind fun value => value.get? f.name)
      return rows.flatten

/-- The rows of a parameter, by its name; a name that no parameter has gives none. -/
def paramRows (r : Resolver) (values : Document) (name : String) :
    Except Unresolved (List Row) :=
  match r.graph.param? name with
  | some key =>
    memberRows r (structRows r (r.graph.nodes.length + 1) []) name (.node key) (values.get? name)
  | none => .ok []

def ofSection (r : Resolver) (values : Document) (s : Annotation.Section) :
    Except Unresolved Table := do
  let rows ← s.params.mapM (paramRows r values)
  return ⟨s.title, rows.flatten⟩

end Table

/-- A table for each section that has rows. -/
def Resolver.tables (r : Resolver) (sections : List Annotation.Section) (values : Document) :
    Except Unresolved (List Table) := do
  let tables ← sections.mapM (Table.ofSection r values)
  return tables.filter fun table => !table.rows.isEmpty

end AnnotatedValues
