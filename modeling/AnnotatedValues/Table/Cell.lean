import AnnotatedValues.DefaultValue
import AnnotatedValues.Document.Json

/-! # Cells of a parameter table

The type column names the kind of an enumeration or struct, not its identifier. The value column
shows the value of the document, else the default that an annotation gives, else `null` for a
pointer and a zero value for the rest; structs, maps, and arrays of other than scalars only show
whether they are empty. -/
namespace AnnotatedValues.Table

def isCollection : Resolved → Bool
  | .array _ | .map _ => true
  | _ => false

/-- The text of a type that stands alone or as the element of a collection. A pointer to a
collection is written as the collection if it stands alone. -/
def kindText (isElement : Bool) : Resolved → String
  | .primitive p => p.name
  | .format name => name
  | .semantic s => if s = .emptyObject then "object" else s.name
  | .pointer inner =>
    if !isElement && isCollection inner then kindText isElement inner
    else "*" ++ kindText isElement inner
  | .array elem => "[]" ++ kindText true elem
  | .map elem => "map[string]" ++ kindText true elem
  | .enum ref => ref.base.name
  | .struct _ => "object"

def typeText (type : Resolved) : String := kindText false type

/-- A string itself, anything else as JSON. -/
def plainText : Document → String
  | .string s => s
  | other => other.json

def inlineArray (items : List Document) : String :=
  "[" ++ ", ".intercalate (items.map plainText) ++ "]"

/-- An empty string shows its quotation marks. -/
def scalarText : Document → String
  | .string s => if s.isEmpty then "\"\"" else s
  | .array items => inlineArray items
  | other => other.json

def isEmptyBrackets (text : String) : Bool := text == "\x7b\x7d" || text == "[]"

/-- The default that an annotation gives, read as a literal. -/
def annotatedText (text : String) : String :=
  let text := String.ofList (Text.trim text.toList)
  if isEmptyBrackets text then text
  else match readLiteral? text with
    | some value => scalarText value
    | none => unquoted text

/-- The text for a value of the type that is not given. -/
def zeroText (type : Resolved) : String :=
  if type.isStringLike then "\"\""
  else
    match type with
    | .primitive p => if p = .bool then "false" else "0"
    | .enum ref => if ref.base = .bool then "false" else "0"
    | _ => "\x7b\x7d"

/-- What stands for a value that the document does not give. -/
def absentText (type : Resolved) (annotated? : Option String) (zero : String) : String :=
  match annotated? with
  | some text => annotatedText text
  | none => if type.isPointer then "null" else zero

/-- Whether elements of the type are written out in the cell of their array. -/
def isInline (elem : Resolved) : Bool :=
  match elem.stripPointer with
  | .enum _ => true
  | type => type.isBuiltin

def arrayText (elem : Resolved) : Document → String
  | .array items =>
    if isInline elem then inlineArray items else if items.isEmpty then "[]" else "[...]"
  | other => scalarText other

def mapText : Document → String
  | .object entries => if entries.isEmpty then "\x7b\x7d" else "\x7b...\x7d"
  | other => scalarText other

/-- The value cell of a member, by its value in the document and its annotated default. -/
def valueText (type : Resolved) (value? : Option Document) (annotated? : Option String) : String :=
  match type.stripPointer with
  | .array elem => (value?.map (arrayText elem)).getD (absentText type annotated? "[]")
  | .map _ => (value?.map mapText).getD (absentText type annotated? "\x7b\x7d")
  | .struct _ => (value?.map fun _ => "\x7b\x7d").getD (absentText type annotated? "\x7b\x7d")
  | leaf => (value?.map scalarText).getD (absentText type annotated? (zeroText leaf))

end AnnotatedValues.Table
