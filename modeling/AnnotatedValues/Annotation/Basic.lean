/-! # Annotation rows

What the comments of a values file declare, one row for each recognized line. -/
namespace AnnotatedValues.Annotation

inductive Kind where
  | param
  | field
  | typedef
  | enum
  deriving DecidableEq, Repr, Inhabited

/-- One annotation. Texts that the line does not give are empty. -/
structure Row where
  kind : Kind
  /-- A parameter's or type's name, or the names of a type and of its field. -/
  path : List String
  /-- The braced block as written, modifiers included. -/
  typeBlock : String
  /-- Values of an enumeration, or the choices that a member is restricted to. -/
  choices : List String
  default : String
  description : String
  /-- The name was written in square brackets. -/
  optional : Bool
  line : Nat
  deriving DecidableEq, Repr, Inhabited

/-- A group of parameters in the documentation, in the order of declaration. -/
structure Section where
  title : String
  params : List String
  deriving DecidableEq, Repr, Inhabited

/-- Something suspicious that does not stop the work. -/
structure Diagnostic where
  line : Nat
  message : String
  deriving DecidableEq, Repr, Inhabited

end AnnotatedValues.Annotation
