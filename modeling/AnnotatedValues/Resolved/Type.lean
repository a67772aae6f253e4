import AnnotatedValues.Builtin

/-! # Resolved types

A type expression whose names have been looked up: built-in types, enumerations and structs under
their emitted identifiers, and pointers, arrays and maps of these. -/
namespace AnnotatedValues

structure EnumRef where
  key : String
  ident : String
  base : Primitive
  values : List String
  deriving DecidableEq, Repr, Inhabited

/-- A node with fields. -/
structure StructRef where
  key : String
  ident : String
  deriving DecidableEq, Repr, Inhabited

inductive Resolved where
  | primitive (p : Primitive)
  | format (name : String)
  | semantic (s : Semantic)
  | pointer (inner : Resolved)
  | array (inner : Resolved)
  | map (inner : Resolved)
  | enum (ref : EnumRef)
  | struct (ref : StructRef)
  deriving DecidableEq, Repr, Inhabited

namespace Resolved

def isPointer : Resolved → Bool
  | .pointer _ => true
  | _ => false

/-- The type without one leading pointer. -/
def stripPointer : Resolved → Resolved
  | .pointer inner => inner
  | other => other

/-- The type without any leading pointers. -/
def pointee : Resolved → Resolved
  | .pointer inner => inner.pointee
  | other => other

def isBuiltin : Resolved → Bool
  | .primitive _ | .format _ | .semantic _ => true
  | _ => false

def struct? : Resolved → Option StructRef
  | .struct ref => some ref
  | _ => none

/-- Whether defaults of the type are written as quoted strings. -/
def isStringLike (t : Resolved) : Bool :=
  match t.stripPointer with
  | .primitive p => p = .string
  | .format _ => true
  | .semantic s => s = .quantity || s = .duration || s = .time
  | .enum ref => ref.base = .string
  | _ => false

/-- The struct inside all pointers, arrays and maps. -/
def innermost? : Resolved → Option StructRef
  | .pointer inner | .array inner | .map inner => inner.innermost?
  | .struct ref => some ref
  | _ => none

end Resolved

end AnnotatedValues
