/-! # Type expressions

A name, or a pointer to, an array of or a map of another type. Keys of maps are strings. -/
namespace AnnotatedValues

inductive TypeExpr where
  | pointer (inner : TypeExpr)
  | array (inner : TypeExpr)
  | map (inner : TypeExpr)
  | named (name : String)
  deriving DecidableEq, Repr, Inhabited

namespace TypeExpr

/-- The innermost name. -/
def base : TypeExpr → String
  | .pointer inner | .array inner | .map inner => inner.base
  | .named name => name

def isPointer : TypeExpr → Bool
  | .pointer _ => true
  | _ => false

/-- The type without one leading pointer. -/
def stripPointer : TypeExpr → TypeExpr
  | .pointer inner => inner
  | other => other

/-- The type without any leading pointers. -/
def pointee : TypeExpr → TypeExpr
  | .pointer inner => inner.pointee
  | other => other

def chars : TypeExpr → List Char
  | .pointer inner => '*' :: inner.chars
  | .array inner => '[' :: ']' :: inner.chars
  | .map inner => "map[string]".toList ++ inner.chars
  | .named name => name.toList

/-- The expression as written without blanks. -/
def text (t : TypeExpr) : String := String.ofList t.chars

end TypeExpr

end AnnotatedValues
