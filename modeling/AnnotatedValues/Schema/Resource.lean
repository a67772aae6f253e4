import AnnotatedValues.Document.Json
import AnnotatedValues.Error
import AnnotatedValues.Schema.Compile
import AnnotatedValues.Yaml.Block

/-! # Resource definitions

The definition of the custom resource whose `spec` holds the parameters, written as YAML, and the
schema of the parameters alone, written as JSON. -/
namespace AnnotatedValues

/-- A version of a resource, with the schema of the whole resource. -/
structure ResourceVersion where
  name : String
  schema : Schema
  deriving Repr, Inhabited

/-- A custom resource: everything but its versions is fixed. -/
structure ResourceDefinition where
  versions : List ResourceVersion
  deriving Repr, Inhabited

namespace ResourceDefinition

def typed (type : ScalarType) : Schema := .scalar .none type none

/-- The usual fields of a resource around the schema of its `spec`. -/
def resourceSchema (spec : Schema) : Schema :=
  .object { Notes.none with description? := some "Config holds the chart values." }
    [("apiVersion", typed .string), ("kind", typed .string), ("metadata", .object .none []),
      ("spec", spec)]

def wrap (spec : Schema) : ResourceDefinition := ⟨[⟨"v1alpha1", resourceSchema spec⟩]⟩

def versionDocument (v : ResourceVersion) : Document :=
  .object [("name", .string v.name), ("served", .bool true), ("storage", .bool true),
    ("schema", .object [("openAPIV3Schema", v.schema.toDocument)])]

def toDocument (d : ResourceDefinition) : Document :=
  .object [
    ("apiVersion", .string "apiextensions.k8s.io/v1"),
    ("kind", .string "CustomResourceDefinition"),
    ("metadata", .object [
      ("name", .string "configs.values.helm.io"),
      ("annotations", .object [("values.helm.io/generated-by", .string "values-gen")])]),
    ("spec", .object [
      ("group", .string "values.helm.io"),
      ("names", .object [
        ("kind", .string "Config"), ("listKind", .string "ConfigList"),
        ("plural", .string "configs"), ("singular", .string "config")]),
      ("scope", .string "Namespaced"),
      ("versions", .array (d.versions.map versionDocument))])]

def text (d : ResourceDefinition) : String := d.toDocument.yaml

/-- The schema of the parameters, by name, in the first version. -/
def parameters? (d : ResourceDefinition) : Except SchemaFault (List (String × Schema)) :=
  match d.versions with
  | [] => .error .noVersions
  | version :: _ =>
    match version.schema.properties.lookup "spec" with
    | some spec => .ok spec.properties
    | none => .error .noSpec

/-- The schema document of the parameters. -/
def valuesSchema? (d : ResourceDefinition) : Except SchemaFault Document :=
  d.parameters?.map fun parameters =>
    .object [("title", .string "Chart Values"), ("type", .string "object"),
      ("properties", .object (Schema.toEntries parameters))]

/-- The definition without the `spec` of its first version. -/
def withoutSpec (d : ResourceDefinition) : ResourceDefinition :=
  match d.versions with
  | ⟨name, .object notes properties⟩ :: versions =>
    ⟨⟨name, .object notes (properties.filter fun p => p.1 != "spec")⟩ :: versions⟩
  | _ => d

end ResourceDefinition

/-- A way to derive the resource definition of a values file: from the file's name, its Go
declarations, or its resolved graph. -/
abbrev SchemaCompiler :=
  (source declarations : String) → (r : Resolver) → Except Error ResourceDefinition

/-- Derives the definition from the resolved graph. -/
def SchemaCompiler.native : SchemaCompiler := fun source _ r =>
  match r.specSchema with
  | .ok spec => .ok (.wrap spec)
  | .error ⟨name⟩ => .error (.compiler source ("type '" ++ name ++ "' has no schema"))

end AnnotatedValues
