import AnnotatedValues.Annotation.Scan
import AnnotatedValues.Go.File
import AnnotatedValues.Graph.Build
import AnnotatedValues.Graph.Samples
import AnnotatedValues.Schema.Resource
import AnnotatedValues.Table.Build
import AnnotatedValues.Table.Readme
import AnnotatedValues.Validation

/-! # Values files

A values file is read once: its annotations make the type graph, its document gives the samples,
and every name in a type must resolve. What is generated from it is generated together or not at
all. -/
namespace AnnotatedValues

namespace Document

/-- Whether a line holds something other than blanks and a comment. -/
def isContent (line : List Char) : Bool :=
  match Text.trim line with
  | [] => false
  | c :: _ => c != '#'

/-- The document of a values file. A text of comments and blank lines is null. -/
def ofText (text : String) : Except Error Document :=
  if (Text.lines text.toList).any isContent then (ofYaml text.toList).mapError .values
  else .ok .null

end Document

def Unresolved.error (u : Unresolved) : Error := .undefinedTypes [u.name]

/-- A values file whose names all resolve. -/
structure ValuesFile where
  /-- The name that messages use for the file. -/
  source : String
  sections : List Annotation.Section
  /-- By line. -/
  diagnostics : List Annotation.Diagnostic
  resolver : Resolver
  values : Document

/-- What to generate. -/
structure Request where
  package : String
  go : Bool
  definition : Bool
  schema : Bool
  /-- The README whose parameters section is to be replaced. -/
  readme? : Option String
  deriving DecidableEq, Repr

structure Artifacts where
  go? : Option String
  definition? : Option String
  schema? : Option String
  readme? : Option String
  deriving DecidableEq, Repr

namespace ValuesFile

def ofText (source text : String) : Except Error ValuesFile := do
  let scan := Annotation.Scan.ofText text.toList
  let graph ← TypeGraph.build scan.rows
  let values ← Document.ofText text
  let resolver := Resolver.ofGraph (graph.populate values)
  match resolver.undefinedTypes with
  | [] =>
    let diagnostics := (scan.diagnostics ++ graph.diagnostics).mergeSort
      fun a b => decide (a.line ≤ b.line)
    return { source, sections := scan.sections, diagnostics, resolver, values }
  | names => throw (.undefinedTypes names)

def validate (f : ValuesFile) : Except Error Unit := f.resolver.validate f.values

/-- The Go file in the given package. -/
def declarations (f : ValuesFile) (package : String) : Except Error String :=
  (Go.declarations f.resolver package).mapError Unresolved.error

def tables (f : ValuesFile) : Except Error (List Table) :=
  (f.resolver.tables f.sections f.values).mapError Unresolved.error

/-- The texts of a resource definition that are asked for: its own and that of the schema. -/
def definitionTexts (request : Request) (d : ResourceDefinition) :
    Except Error (Option String × Option String) := do
  let definition? := if request.definition then some d.text else none
  if request.schema then
    let schema ← d.valuesSchema?.mapError .schema
    return (definition?, some schema.indentedJson)
  else return (definition?, none)

/-- The texts that need the resource definition, which is only derived for them. -/
def compiled (f : ValuesFile) (request : Request) (compiler : SchemaCompiler)
    (declarations : String) : Except Error (Option String × Option String) :=
  if request.definition || request.schema then do
    definitionTexts request (← compiler f.source declarations f.resolver)
  else .ok (none, none)

def updatedReadme (f : ValuesFile) : Option String → Except Error (Option String)
  | none => .ok none
  | some readme => do
    let tables ← f.tables
    return some (← Readme.update readme tables)

/-- Generates what is asked for, if the values are valid. -/
def generateWith (f : ValuesFile) (compiler : SchemaCompiler) (request : Request) :
    Except Error Artifacts := do
  f.validate
  let declarations ← f.declarations request.package
  let (definition?, schema?) ← f.compiled request compiler declarations
  let readme? ← f.updatedReadme request.readme?
  return ⟨if request.go then some declarations else none, definition?, schema?, readme?⟩

def generate (f : ValuesFile) (request : Request) : Except Error Artifacts :=
  f.generateWith .native request

end ValuesFile

end AnnotatedValues
