import AnnotatedValues.DefaultValue
import AnnotatedValues.Resolved.Resolver
import AnnotatedValues.Schema.Basic

/-! # Schemas of resolved types

A struct becomes an object with a property for each field. Inside its own expansion it becomes an
object with arbitrary fields, so that recursive types end. -/
namespace AnnotatedValues.Resolver

open Decimal

def primitiveSchema (values : List Document) (p : Primitive) : Schema :=
  let notes : Notes := ⟨none, values, none⟩
  match p with
  | .string => .scalar notes .string none
  | .bool => .scalar notes .boolean none
  | .int => .scalar notes .integer none
  | .int32 => .scalar notes .integer (some "int32")
  | .int64 => .scalar notes .integer (some "int64")
  | .float32 | .float64 => .scalar notes .number none

/-- An integer of 64 bits, by its text. -/
def readInt64? (cs : List Char) : Option Int :=
  (readInt? cs).filter fun n => -Int.ofNat (Nat.pow 2 63) ≤ n && n < Int.ofNat (Nat.pow 2 63)

/-- The value of a member of an enumeration: of the base type if its text is one, else a string. -/
def enumValue (text : String) (base : Primitive) : Document :=
  let read? : Option Document :=
    if base.isInteger then (readInt64? text.toList).map fun n => .number (.int n)
    else if base.isFloat then (readBinary64? text.toList).map fun x => .number (.float x)
    else if base = .bool then
      if text == "true" then some (.bool true) else if text == "false" then some (.bool false)
      else none
    else none
  read?.getD (.string text)

/-- The value of a choice for a member of the given type. -/
def choiceValue (text : String) (type : Resolved) : Document :=
  match type.stripPointer with
  | .primitive p => enumValue text p
  | .enum ref => enumValue text ref.base
  | _ => .string text

def defaultDocument? (text : String) (type : Resolved) : Option Document :=
  (DefaultValue.ofText? text type).map fun
    | .string s => .string s
    | .document d => d
    | .raw text => .string text

def semanticSchema : Semantic → Schema
  | .quantity => .quantity .none
  | .duration => .scalar .none .string none
  | .time => .scalar .none .string (some "date-time")
  | .object | .emptyObject => .freeForm .none

/-- The schema of a type, given those of structs. -/
def typeSchema (struct : StructRef → Except Unresolved Schema) :
    Resolved → Except Unresolved Schema
  | .primitive p => .ok (primitiveSchema [] p)
  | .format name => .ok (.scalar .none .string (some name))
  | .semantic s => .ok (semanticSchema s)
  | .pointer inner => typeSchema struct inner
  | .array inner => (typeSchema struct inner).map (.array .none)
  | .map inner => (typeSchema struct inner).map (.map .none)
  | .enum ref => .ok (primitiveSchema (ref.values.map fun v => enumValue v ref.base) ref.base)
  | .struct ref => struct ref

/-- The notes with a member's own description, choices and default. -/
def memberNotes (m : Member) (type : Resolved) (notes : Notes) : Notes where
  description? := if m.comment.isEmpty then notes.description? else some m.comment
  values := if m.choices.isEmpty then notes.values
    else m.choices.map fun c => choiceValue c type
  default? := (m.default?.bind fun d => defaultDocument? d.text type).or notes.default?

/-- The schema of a member, given those of structs. -/
def memberSchema (r : Resolver) (struct : StructRef → Except Unresolved Schema) (slot : Slot) :
    Except Unresolved Schema := do
  let type ← r.resolveSlot slot
  let schema ← typeSchema struct type
  return schema.withNotes (memberNotes ((r.graph.member? slot).getD .blank) type)

/-- The schema of a struct inside the expansion of those in `path`, of which there can be at most
as many as there are nodes. -/
def structSchema (r : Resolver) : (fuel : Nat) → (path : List String) → StructRef →
    Except Unresolved Schema
  | 0, _, _ => .ok (.freeForm .none)
  | fuel + 1, path, ref =>
    if path.contains ref.key then .ok (.freeForm .none)
    else do
      let properties ← (r.graph.fieldsOf ref.key).mapM fun f => do
        let schema ← r.memberSchema (r.structSchema fuel (ref.key :: path)) (.field ref.key f.name)
        return (f.name, schema)
      return .object .none properties

/-- The schema of a parameter. -/
def paramSchema (r : Resolver) (key : String) : Except Unresolved Schema :=
  r.memberSchema (r.structSchema (r.graph.nodes.length + 1) []) (.node key)

/-- The schema with a property for each parameter, by name. -/
def specSchema (r : Resolver) : Except Unresolved Schema := do
  let properties ← r.graph.sortedParams.mapM fun key => do
    return (r.graph.nameOf key, ← r.paramSchema key)
  return .object .none properties

end AnnotatedValues.Resolver
