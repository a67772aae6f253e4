import AnnotatedValues.Resolved.Identifier
import AnnotatedValues.Resolved.Type

/-! # Types in Go

Pointers, arrays and maps are written in front of the type inside; enumerations and structs by their
identifiers; types with a meaning of their own come from packages. -/
namespace AnnotatedValues.Go

/-- Packages that field types may come from, in the order of their paths. -/
inductive Package where
  | resource
  | metav1
  | runtime
  deriving DecidableEq, Repr

def Package.all : List Package := [.resource, .metav1, .runtime]

def Package.path : Package → String
  | .resource => "k8s.io/apimachinery/pkg/api/resource"
  | .metav1 => "k8s.io/apimachinery/pkg/apis/meta/v1"
  | .runtime => "k8s.io/apimachinery/pkg/runtime"

def Package.name : Package → String
  | .resource => "resource"
  | .metav1 => "metav1"
  | .runtime => "k8sRuntime"

/-- The package and the name in it of a type with a meaning of its own. -/
def qualified? : Semantic → Option (Package × String)
  | .quantity => some (.resource, "Quantity")
  | .duration => some (.metav1, "Duration")
  | .time => some (.metav1, "Time")
  | .object => some (.runtime, "RawExtension")
  | .emptyObject => none

def typeText : Resolved → String
  | .primitive p => p.name
  | .format _ => "string"
  | .semantic s =>
    match qualified? s with
    | some (package, name) => package.name ++ "." ++ name
    | none => Identifier.emptyObject
  | .pointer inner => "*" ++ typeText inner
  | .array inner => "[]" ++ typeText inner
  | .map inner => "map[string]" ++ typeText inner
  | .enum ref => ref.ident
  | .struct ref => ref.ident

/-- The meaning inside all pointers, arrays and maps. -/
def semantic? : Resolved → Option Semantic
  | .pointer inner | .array inner | .map inner => semantic? inner
  | .semantic s => some s
  | _ => none

def uses (package : Package) (type : Resolved) : Bool :=
  (((semantic? type).bind qualified?).map fun q => q.1 == package).getD false

def usesEmptyObject (type : Resolved) : Bool := semantic? type == some .emptyObject

end AnnotatedValues.Go
