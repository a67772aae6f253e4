import AnnotatedValues.Proofs.Graph.Members
import AnnotatedValues.Proofs.Resolved.Identifiers

/-!
# Resolution with other members

Identifiers come from the nodes of a graph, and the type at a slot from them and
from the type of its member.  If all members are changed but keep their types,
every name, type and slot resolves as before, and the same names are undefined.
-/

namespace AnnotatedValues.TypeGraph

variable (h : Member → Member) (g : TypeGraph)

/-! ## Identifiers -/

theorem typeBases_mapMembers : Identifier.typeBases (g.mapMembers h) = Identifier.typeBases g := by
  unfold Identifier.typeBases Identifier.isNamedType
  rw [types_mapMembers, hasFields_mapMembers, List.filter_map, List.map_map]
  rfl

theorem ident_mapMembers :
    (Resolver.ofGraph (g.mapMembers h)).ident = (Resolver.ofGraph g).ident := by
  funext key
  unfold Resolver.ident Resolver.ofGraph Identifier.ofGraph
  rw [typeBases_mapMembers, nameOf_mapMembers]

theorem structRef_mapMembers :
    (Resolver.ofGraph (g.mapMembers h)).structRef = (Resolver.ofGraph g).structRef := by
  funext key
  rw [Resolver.structRef, Resolver.structRef, ident_mapMembers]

theorem enumRef?_mapMembers :
    (Resolver.ofGraph (g.mapMembers h)).enumRef? = (Resolver.ofGraph g).enumRef? := by
  funext key
  have henum : ((g.mapMembers h).node? key).bind (·.enum?) = (g.node? key).bind (·.enum?) := by
    rw [node?_mapMembers, Option.bind_map]
    rfl
  rw [Resolver.enumRef?, Resolver.enumRef?, Resolver.graph_ofGraph, Resolver.graph_ofGraph, henum,
    ident_mapMembers]

/-! ## Names and types -/

theorem declared?_mapMembers :
    (Resolver.ofGraph (g.mapMembers h)).declared? = (Resolver.ofGraph g).declared? := by
  funext name
  unfold Resolver.declared?
  rw [structRef_mapMembers, enumRef?_mapMembers, Resolver.graph_ofGraph, Resolver.graph_ofGraph,
    lookup?_mapMembers, hasFields_mapMembers]

theorem contextual_mapMembers :
    (Resolver.ofGraph (g.mapMembers h)).contextual = (Resolver.ofGraph g).contextual := by
  funext name
  unfold Resolver.contextual
  rw [structRef_mapMembers, Resolver.graph_ofGraph, Resolver.graph_ofGraph, lookup?_mapMembers,
    hasFields_mapMembers]

theorem resolveName_mapMembers :
    (Resolver.ofGraph (g.mapMembers h)).resolveName = (Resolver.ofGraph g).resolveName := by
  funext name
  unfold Resolver.resolveName
  rw [declared?_mapMembers, contextual_mapMembers]

theorem resolve_mapMembers :
    (Resolver.ofGraph (g.mapMembers h)).resolve = (Resolver.ofGraph g).resolve := by
  funext type
  induction type with
  | pointer inner ih | array inner ih | map inner ih =>
      rw [Resolver.resolve, Resolver.resolve, ih]
  | named name => rw [Resolver.resolve, Resolver.resolve, resolveName_mapMembers]

section

variable {h} (htype : ∀ m, (h m).type? = m.type?)

include htype

theorem resolveSlot_mapMembers :
    (Resolver.ofGraph (g.mapMembers h)).resolveSlot = (Resolver.ofGraph g).resolveSlot := by
  funext slot
  unfold Resolver.resolveSlot
  rw [resolve_mapMembers, structRef_mapMembers, Resolver.graph_ofGraph, Resolver.graph_ofGraph,
    type?_mapMembers g htype, hasFields_mapMembers, nameOf_mapMembers]

theorem undefinedTypes_mapMembers :
    (Resolver.ofGraph (g.mapMembers h)).undefinedTypes = (Resolver.ofGraph g).undefinedTypes := by
  have hnames : ∀ (types : List TypeExpr) (seen : List String),
      (Resolver.ofGraph (g.mapMembers h)).unresolvedNames types seen =
        (Resolver.ofGraph g).unresolvedNames types seen := by
    intro types
    induction types with
    | nil => exact fun _ => rfl
    | cons type types ih =>
        intro seen
        simp only [Resolver.unresolvedNames, resolve_mapMembers, ih]
  change ((Resolver.ofGraph (g.mapMembers h)).unresolvedNames (g.mapMembers h).memberTypes []).mergeSort _ =
    ((Resolver.ofGraph g).unresolvedNames g.memberTypes []).mergeSort _
  rw [hnames, memberTypes_mapMembers g htype]

end

end AnnotatedValues.TypeGraph
