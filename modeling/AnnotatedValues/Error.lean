import AnnotatedValues.TypeExpr.Parser
import AnnotatedValues.Yaml.Reading

/-! # Errors

What can stop the work on a values file, and how it is reported. -/
namespace AnnotatedValues

/-- A problem found while checking a values document against the declared parameters. -/
inductive Issue where
  | unknownParameter (key : String)
  | undeclaredField (path : String)
  | noSchema (name path : String)
  deriving DecidableEq, Repr, Inhabited

def Issue.message : Issue → String
  | .unknownParameter key => "parameter '" ++ key ++ "' is not defined in schema"
  | .undeclaredField path => "field '" ++ path ++ "' is not defined in schema"
  | .noSchema name path => "type '" ++ name ++ "' referenced at '" ++ path ++ "' has no schema"

/-- Why a file could not be read or written. -/
inductive FileFault where
  | missing
  | exists
  | notDirectory
  | isDirectory
  | notText
  | invalidName
  | nameTooLong
  | denied
  /-- Any other fault, by the text that the system has for it. -/
  | other (text : String)
  deriving DecidableEq, Repr, Inhabited

def FileFault.message : FileFault → String
  | .missing => "No such file or directory (os error 2)"
  | .exists => "File exists (os error 17)"
  | .notDirectory => "Not a directory (os error 20)"
  | .isDirectory => "Is a directory (os error 21)"
  | .notText => "stream did not contain valid UTF-8"
  | .invalidName => "file name contained an unexpected NUL byte"
  | .nameTooLong => "File name too long (os error 36)"
  | .denied => "Permission denied (os error 13)"
  | .other text => text

/-- What is missing in a resource definition. -/
inductive SchemaFault where
  | noVersions
  | noSpec
  deriving DecidableEq, Repr, Inhabited

def SchemaFault.message : SchemaFault → String
  | .noVersions => "CRD has no versions"
  | .noSpec => "CRD schema has no spec property"

inductive Error where
  /-- Type names that are referred to and never get fields or values. -/
  | undefinedTypes (names : List String)
  | validation (issues : List Issue)
  | typeExpr (expr : String) (fault : TypeExpr.Fault)
  | values (path : Yaml.Path)
  | compiler (source message : String)
  | schema (fault : SchemaFault)
  | noParametersSection
  | unreadable (path : String) (fault : FileFault)
  deriving DecidableEq, Repr

def Error.message : Error → String
  | .undefinedTypes names => "undefined types: " ++ ", ".intercalate names
  | .validation issues => "; ".intercalate (issues.map Issue.message)
  | .typeExpr expr fault => "invalid type expression `" ++ expr ++ "`: " ++ fault.message
  | .values path =>
    "failed to parse values at `" ++ String.ofList path.text ++ "`: the document is malformed"
  | .compiler source message => "schema compiler failed for " ++ source ++ ": " ++ message
  | .schema fault => "schema document: " ++ fault.message
  | .noParametersSection => "Parameters section not found"
  | .unreadable path fault => "failed to read " ++ path ++ ": " ++ fault.message

/-- The type that a block of an annotation names. -/
def TypeExpr.ofBlock (block : String) : Except Error TypeExpr :=
  (TypeExpr.parse block.toList).mapError fun fault =>
    .typeExpr (String.ofList (Text.trim block.toList)) fault

end AnnotatedValues
