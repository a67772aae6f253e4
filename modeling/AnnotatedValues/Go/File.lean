import AnnotatedValues.Go.Declaration

/-! # Go files

One file declares the root type around a struct with a field for each parameter, the structs and
enumerations of a graph, and the struct without fields if a field has it. It imports the packages
that its field types come from. -/
namespace AnnotatedValues.Go

/-- A file before it is written: all that it declares beside the root type. -/
structure File where
  package : String
  structs : List StructDecl
  enums : List EnumDecl
  deriving DecidableEq, Repr

/-- The types of all fields. -/
def File.fieldTypes (f : File) : List Resolved := f.structs.flatMap fun s => s.fields.map (·.type)

/-- The root type needs its package in any case. -/
def File.imports (f : File) : List Package :=
  Package.all.filter fun package => package == .metav1 || f.fieldTypes.any (uses package)

/-- Whether the struct without fields is declared. -/
def File.hasEmptyObject (f : File) : Bool := f.fieldTypes.any usesEmptyObject

def rootText : String :=
  "type Config struct \x7b\n" ++
    "\tmetav1.TypeMeta   `json:\",inline\"`\n" ++
    "\tmetav1.ObjectMeta `json:\"metadata,omitempty\"`\n\n" ++
    "\tSpec ConfigSpec `json:\"spec,omitempty\"`\n" ++
    "\x7d\n\n"

def importText (package : Package) : String :=
  "\t" ++ package.name ++ " \"" ++ package.path ++ "\"\n"

def headText (package : String) (imports : List Package) : String :=
  "// +kubebuilder:object:generate=true\n" ++
    "// +kubebuilder:object:root=true\n" ++
    "// +groupName=values.helm.io\n\n" ++
    "// +versionName=v1alpha1\n\n" ++
    "// Code generated by values-gen. DO NOT EDIT.\n" ++
    "package " ++ package ++ "\n\n" ++
    "import (\n" ++ String.join (imports.map importText) ++ ")\n\n"

def trimmedEnd (s : String) : String := String.ofList (Text.trimEnd s.toList)

def emptyObjectText : String := "type " ++ Identifier.emptyObject ++ " struct\x7b\x7d\n\n"

/-- The declarations, with a blank line behind each. -/
def File.bodyText (f : File) : String :=
  rootText ++ String.join (f.structs.map StructDecl.text) ++
    String.join (f.enums.map EnumDecl.text) ++ if f.hasEmptyObject then emptyObjectText else ""

def File.text (f : File) : String :=
  headText f.package f.imports ++ trimmedEnd f.bodyText ++ "\n"

/-- The file of a graph, in the given package. -/
def file (r : Resolver) (package : String) : Except Unresolved File := do
  let structs ← structDecls r
  return ⟨package, structs, r.enumTypes.map (enumDecl r)⟩

def declarations (r : Resolver) (package : String) : Except Unresolved String :=
  (file r package).map File.text

end AnnotatedValues.Go
