import AnnotatedValues.Annotation.Literal
import AnnotatedValues.Resolved.Type
import AnnotatedValues.Yaml.Reading

/-! # What a default text denotes

The text of a default is read by the type of its member: for types that are written as strings it
is the string, without quotes around it; else the document that it denotes as YAML. Null, and any
default of the empty struct, denote no default. -/
namespace AnnotatedValues

/-- The document that a literal denotes. -/
def readLiteral? (text : String) : Option Document := (Document.ofYaml text.toList).toOption

def unquoted (text : String) : String := String.ofList <| Annotation.unquote text.toList

inductive DefaultValue where
  | string (value : String)
  | document (value : Document)
  /-- A text that denotes no document. -/
  | raw (text : String)
  deriving DecidableEq, Repr

def DefaultValue.ofText? (text : String) (type : Resolved) : Option DefaultValue :=
  if type.stripPointer = .semantic .emptyObject then none
  else if type.isStringLike then some (.string (unquoted text))
  else match readLiteral? text with
    | some .null => none
    | some value => some (.document value)
    | none => some (.raw text)

end AnnotatedValues
