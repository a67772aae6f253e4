import AnnotatedValues.Document.Basic

/-! # Value schemas

What a schema node says about values: the kind of values, with their parts, and notes that apply to
any kind. A node becomes a document with its keywords in a fixed order, absent ones left out. -/
namespace AnnotatedValues

/-- The JSON types of scalars. -/
inductive ScalarType where
  | string
  | boolean
  | integer
  | number
  deriving DecidableEq, Repr, Inhabited

def ScalarType.name : ScalarType → String
  | .string => "string"
  | .boolean => "boolean"
  | .integer => "integer"
  | .number => "number"

structure Notes where
  description? : Option String
  /-- Allowed values; no restriction if empty. -/
  values : List Document
  default? : Option Document
  deriving DecidableEq, Repr, Inhabited

def Notes.none : Notes := ⟨.none, [], .none⟩

inductive Schema where
  /-- A node that says nothing about the kind of value. -/
  | any (notes : Notes)
  | scalar (notes : Notes) (type : ScalarType) (format? : Option String)
  /-- An integer, or a string with a number and a unit. -/
  | quantity (notes : Notes)
  /-- An object with arbitrary fields. -/
  | freeForm (notes : Notes)
  | array (notes : Notes) (items : Schema)
  /-- An object with arbitrary keys and values of one kind. -/
  | map (notes : Notes) (values : Schema)
  | object (notes : Notes) (properties : List (String × Schema))
  deriving Repr, Inhabited

namespace Schema

def notes : Schema → Notes
  | .any n | .scalar n _ _ | .quantity n | .freeForm n | .array n _ | .map n _ | .object n _ => n

def withNotes (f : Notes → Notes) : Schema → Schema
  | .any n => .any (f n)
  | .scalar n type format? => .scalar (f n) type format?
  | .quantity n => .quantity (f n)
  | .freeForm n => .freeForm (f n)
  | .array n items => .array (f n) items
  | .map n values => .map (f n) values
  | .object n properties => .object (f n) properties

@[simp] theorem notes_withNotes (f : Notes → Notes) (s : Schema) :
    (s.withNotes f).notes = f s.notes := by cases s <;> rfl

def properties : Schema → List (String × Schema)
  | .object _ properties => properties
  | _ => []

/-- Signed decimal numbers with a unit or an exponent. -/
def quantityPattern : String :=
  "^(\\+|-)?(([0-9]+(\\.[0-9]*)?)|(\\.[0-9]+))" ++
    "(([KMGTPE]i)|[numkMGTPE]|([eE](\\+|-)?(([0-9]+(\\.[0-9]*)?)|(\\.[0-9]+))))?$"

/-- The keywords of a node: those of the notes between those for the kind of value and those for
its parts. -/
def keywords (notes : Notes) (kind parts : List (String × Document)) : Document :=
  .object <|
    (notes.description?.map fun d => ("description", Document.string d)).toList ++ kind ++
    (if notes.values.isEmpty then [] else [("enum", .array notes.values)]) ++
    (notes.default?.map fun d => ("default", d)).toList ++ parts

def typeKeyword (name : String) : String × Document := ("type", .string name)

mutual

def toDocument : Schema → Document
  | .any n => keywords n [] []
  | .scalar n type format? =>
    keywords n
      (typeKeyword type.name :: (format?.map fun f => ("format", Document.string f)).toList) []
  | .quantity n =>
    keywords n [("pattern", .string quantityPattern)]
      [("anyOf", .array [.object [typeKeyword "integer"], .object [typeKeyword "string"]]),
        ("x-kubernetes-int-or-string", .bool true)]
  | .freeForm n =>
    keywords n [typeKeyword "object"] [("x-kubernetes-preserve-unknown-fields", .bool true)]
  | .array n items => keywords n [typeKeyword "array"] [("items", toDocument items)]
  | .map n values =>
    keywords n [typeKeyword "object"] [("additionalProperties", toDocument values)]
  | .object n properties =>
    keywords n [typeKeyword "object"]
      (if properties.isEmpty then [] else [("properties", .object (toEntries properties))])
termination_by structural s => s

def toEntries : List (String × Schema) → List (String × Document)
  | [] => []
  | (name, schema) :: properties => (name, toDocument schema) :: toEntries properties
termination_by structural properties => properties

end

theorem toDocument_scalar (n : Notes) (type : ScalarType) (format? : Option String) :
    (scalar n type format?).toDocument = keywords n
      (typeKeyword type.name :: (format?.map fun f => ("format", Document.string f)).toList) [] :=
  rfl

theorem toDocument_quantity (n : Notes) :
    (quantity n).toDocument = keywords n [("pattern", .string quantityPattern)]
      [("anyOf", .array [.object [typeKeyword "integer"], .object [typeKeyword "string"]]),
        ("x-kubernetes-int-or-string", .bool true)] :=
  rfl

theorem toDocument_freeForm (n : Notes) :
    (freeForm n).toDocument = keywords n [typeKeyword "object"]
      [("x-kubernetes-preserve-unknown-fields", .bool true)] :=
  rfl

theorem toDocument_array (n : Notes) (items : Schema) :
    (array n items).toDocument =
      keywords n [typeKeyword "array"] [("items", items.toDocument)] :=
  rfl

theorem toDocument_map (n : Notes) (values : Schema) :
    (map n values).toDocument =
      keywords n [typeKeyword "object"] [("additionalProperties", values.toDocument)] :=
  rfl

theorem toDocument_object (n : Notes) (properties : List (String × Schema)) :
    (object n properties).toDocument = keywords n [typeKeyword "object"]
      (if properties.isEmpty then [] else [("properties", .object (toEntries properties))]) :=
  rfl

end Schema

end AnnotatedValues
