/-! # Built-in type names

Names that never refer to a declared type: primitives, string formats, and the types with a
meaning of their own. -/
namespace AnnotatedValues

inductive Primitive where
  | string
  | bool
  | int
  | int32
  | int64
  | float32
  | float64
  deriving DecidableEq, Repr, Inhabited

namespace Primitive

def ofName? : String → Option Primitive
  | "string" => some .string
  | "bool" => some .bool
  | "int" => some .int
  | "int32" => some .int32
  | "int64" => some .int64
  | "float32" => some .float32
  | "float64" => some .float64
  | _ => none

def name : Primitive → String
  | .string => "string"
  | .bool => "bool"
  | .int => "int"
  | .int32 => "int32"
  | .int64 => "int64"
  | .float32 => "float32"
  | .float64 => "float64"

def isInteger : Primitive → Bool
  | .int | .int32 | .int64 => true
  | _ => false

def isFloat : Primitive → Bool
  | .float32 | .float64 => true
  | _ => false

end Primitive

/-- Types with a meaning that no primitive has. -/
inductive Semantic where
  | quantity
  | duration
  | time
  /-- Any JSON object; unknown fields are preserved. -/
  | object
  /-- A struct without fields. -/
  | emptyObject
  deriving DecidableEq, Repr, Inhabited

namespace Semantic

def ofName? : String → Option Semantic
  | "quantity" => some .quantity
  | "duration" => some .duration
  | "time" => some .time
  | "object" => some .object
  | "emptyobject" => some .emptyObject
  | _ => none

def name : Semantic → String
  | .quantity => "quantity"
  | .duration => "duration"
  | .time => "time"
  | .object => "object"
  | .emptyObject => "emptyobject"

end Semantic

namespace Builtin

/-- Kinds of strings, which differ from strings only by a format tag in the schema. -/
def stringFormats : List String := [
  "bsonobjectid", "uri", "email", "hostname", "ipv4", "ipv6", "cidr", "mac", "uuid", "uuid3",
  "uuid4", "uuid5", "isbn", "isbn10", "isbn13", "creditcard", "ssn", "hexcolor", "rgbcolor",
  "byte", "password", "date"]

def isFormat (name : String) : Bool := stringFormats.contains name

/-- Names that never refer to a declared type. -/
def isName (name : String) : Bool :=
  (Primitive.ofName? name).isSome || isFormat name || (Semantic.ofName? name).isSome

/-- Names that stand for a declared struct if there is one, and else for any object. -/
def isContextual (name : String) : Bool :=
  name == "resources" || name == "request" || name == "limit"

end Builtin

end AnnotatedValues
