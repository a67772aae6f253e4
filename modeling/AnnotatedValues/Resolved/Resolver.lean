import AnnotatedValues.Resolved.Identifier
import AnnotatedValues.Resolved.Type

/-! # Resolving types

A name is looked for among the built-in types and then in the graph, where it must have values of
an enumeration or fields. The names of kinds of resources need neither: without fields they stand
for any object. -/
namespace AnnotatedValues

/-- A name that is neither built in nor has fields or values. -/
structure Unresolved where
  name : String
  deriving DecidableEq, Repr, Inhabited

/-- A graph with the identifiers of its types. -/
structure Resolver where
  graph : TypeGraph
  idents : List (String × String)
  deriving Repr, Inhabited

namespace Resolver

def ofGraph (graph : TypeGraph) : Resolver := ⟨graph, Identifier.ofGraph graph⟩

/-- The identifier emitted for a node. -/
def ident (r : Resolver) (key : String) : String :=
  (r.idents.lookup key).getD (Identifier.camel (r.graph.nameOf key))

def structRef (r : Resolver) (key : String) : StructRef := ⟨key, r.ident key⟩

/-- The enumeration that a node declares with at least one value. -/
def enumRef? (r : Resolver) (key : String) : Option EnumRef :=
  match (r.graph.node? key).bind (·.enum?) with
  | some decl =>
    if decl.values.isEmpty then none
    else some ⟨key, r.ident key, (Primitive.ofName? decl.base).getD .string, decl.values⟩
  | none => none

/-- The type that a built-in name denotes. -/
def builtin? (name : String) : Option Resolved :=
  match Primitive.ofName? name with
  | some p => some (.primitive p)
  | none =>
    if Builtin.isFormat name then some (.format name)
    else (Semantic.ofName? name).map .semantic

/-- The type that a declared name denotes. -/
def declared? (r : Resolver) (name : String) : Option Resolved :=
  match r.graph.lookup? name with
  | none => none
  | some key =>
    match r.enumRef? key with
    | some ref => some (.enum ref)
    | none => if r.graph.hasFields key then some (.struct (r.structRef key)) else none

/-- The type that a name of a kind of resources denotes. -/
def contextual (r : Resolver) (name : String) : Resolved :=
  match (r.graph.lookup? name).filter r.graph.hasFields with
  | some key => .struct (r.structRef key)
  | none => .semantic .object

def resolveName (r : Resolver) (name : String) : Except Unresolved Resolved :=
  match builtin? name with
  | some t => .ok t
  | none =>
    if Builtin.isContextual name then .ok (r.contextual name)
    else match r.declared? name with
      | some t => .ok t
      | none => .error ⟨name⟩

def resolve (r : Resolver) : TypeExpr → Except Unresolved Resolved
  | .pointer inner => (r.resolve inner).map .pointer
  | .array inner => (r.resolve inner).map .array
  | .map inner => (r.resolve inner).map .map
  | .named name => r.resolveName name

/-- The type of the values at a slot: what its annotation says, else the struct that it is. -/
def resolveSlot (r : Resolver) (slot : Slot) : Except Unresolved Resolved :=
  match (r.graph.member? slot).bind (·.type?) with
  | some type => r.resolve type
  | none =>
    match slot with
    | .node key =>
      if r.graph.hasFields key then .ok (.struct (r.structRef key))
      else .error ⟨r.graph.nameOf key⟩
    | .field _ name => .error ⟨name⟩

/-- The names that do not resolve, in the order of first mention, one spelling for each key. -/
def unresolvedNames (r : Resolver) : List TypeExpr → (seen : List String) → List String
  | [], _ => []
  | type :: types, seen =>
    match r.resolve type with
    | .ok _ => r.unresolvedNames types seen
    | .error ⟨name⟩ =>
      if seen.contains (keyOf name) then r.unresolvedNames types seen
      else name :: r.unresolvedNames types (keyOf name :: seen)

/-- The names that some annotation refers to and that never get fields or values, sorted. -/
def undefinedTypes (r : Resolver) : List String :=
  (r.unresolvedNames (r.graph.members.filterMap (·.type?)) []).mergeSort
    fun a b => decide (a ≤ b)

/-- The declared enumerations with values, by identifier. -/
def enumTypes (r : Resolver) : List EnumRef :=
  let refs := (r.graph.types.filter fun t => t.2.enum?.isSome).filterMap fun t =>
    match r.resolveName t.2.name with
    | .ok (.enum ref) => some ref
    | _ => none
  refs.mergeSort fun a b => decide (a.ident ≤ b.ident)

end Resolver

end AnnotatedValues
