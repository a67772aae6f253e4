import AnnotatedValues.Proofs.Graph.Equivalence
import AnnotatedValues.Proofs.Resolved.Reachability
import AnnotatedValues.Proofs.Resolved.Sweep

/-!
# Resolution in equivalent graphs

Equivalent graphs give their types the same identifiers, resolve names alike and
reach the same structs.  If every name of a type has one spelling, they also
leave the same names undefined.
-/

namespace AnnotatedValues

open Fallible

namespace TypeGraph.Equivalent

variable {g g' : TypeGraph}

/-! ## Identifiers -/

theorem isNamedType_eq (h : g.Equivalent g') :
    Identifier.isNamedType g = Identifier.isNamedType g' := by
  funext key node
  rw [Identifier.isNamedType, Identifier.isNamedType, h.hasFields_eq]

theorem idents_eq (h : g.Equivalent g') : Identifier.ofGraph g = Identifier.ofGraph g' := by
  unfold Identifier.ofGraph Identifier.typeBases
  rw [h.types_eq, h.isNamedType_eq]

theorem ident_eq (h : g.Equivalent g') :
    (Resolver.ofGraph g).ident = (Resolver.ofGraph g').ident := by
  funext key
  unfold Resolver.ident Resolver.ofGraph
  rw [h.idents_eq, h.nameOf_eq]

theorem structRef_eq (h : g.Equivalent g') :
    (Resolver.ofGraph g).structRef = (Resolver.ofGraph g').structRef := by
  funext key
  rw [Resolver.structRef, Resolver.structRef, h.ident_eq]

theorem enumRef?_eq (h : g.Equivalent g') :
    (Resolver.ofGraph g).enumRef? = (Resolver.ofGraph g').enumRef? := by
  funext key
  rw [Resolver.enumRef?, Resolver.enumRef?, Resolver.graph_ofGraph, Resolver.graph_ofGraph,
    h.node?, h.ident_eq]

/-! ## Resolved types -/

theorem resolveName_eq (h : g.Equivalent g') :
    (Resolver.ofGraph g).resolveName = (Resolver.ofGraph g').resolveName := by
  funext name
  rw [Resolver.resolveName_eq (r := .ofGraph g) h.left,
    Resolver.resolveName_eq (r := .ofGraph g') h.right, Resolver.graph_ofGraph,
    Resolver.graph_ofGraph, h.hasFields_eq, h.structRef_eq, h.enumRef?_eq]

theorem resolve_eq (h : g.Equivalent g') :
    (Resolver.ofGraph g).resolve = (Resolver.ofGraph g').resolve := by
  funext type
  induction type with
  | pointer inner ih | array inner ih | map inner ih =>
      rw [Resolver.resolve, Resolver.resolve, ih]
  | named name => rw [Resolver.resolve, Resolver.resolve, h.resolveName_eq]

theorem resolveSlot_eq (h : g.Equivalent g') :
    (Resolver.ofGraph g).resolveSlot = (Resolver.ofGraph g').resolveSlot := by
  funext slot
  unfold Resolver.resolveSlot
  rw [h.resolve_eq, h.structRef_eq, Resolver.graph_ofGraph, Resolver.graph_ofGraph, h.member?_eq,
    h.hasFields_eq, h.nameOf_eq]

/-! ## Declared types -/

theorem successors_eq (h : g.Equivalent g') :
    (Resolver.ofGraph g).successors = (Resolver.ofGraph g').successors := by
  funext key
  unfold Resolver.successors
  rw [h.resolveSlot_eq, Resolver.graph_ofGraph, Resolver.graph_ofGraph, h.fieldsOf_eq]

theorem mem_roots_iff (h : g.Equivalent g') {key : String} :
    key ∈ (Resolver.ofGraph g).roots ↔ key ∈ (Resolver.ofGraph g').roots := by
  simp only [Resolver.mem_roots, Resolver.graph_ofGraph, h.mem_params_iff, h.perm_nodes.mem_iff,
    h.hasFields_eq, h.resolveSlot_eq]

theorem mem_reached_iff (h : g.Equivalent g') {key : String} :
    key ∈ (Resolver.ofGraph g).reached ↔ key ∈ (Resolver.ofGraph g').reached := by
  have hcontains : (Resolver.ofGraph g).Contains = (Resolver.ofGraph g').Contains := by
    funext key other
    rw [Resolver.Contains, Resolver.Contains, h.successors_eq]
  rw [Resolver.mem_reached_iff (r := .ofGraph g) h.left,
    Resolver.mem_reached_iff (r := .ofGraph g') h.right, hcontains]
  simp only [h.mem_roots_iff]

theorem structTypes_eq (h : g.Equivalent g') :
    (Resolver.ofGraph g).structTypes = (Resolver.ofGraph g').structTypes := by
  have hreached : ∀ key, (Resolver.ofGraph g).reached.contains key =
      (Resolver.ofGraph g').reached.contains key := by
    intro key
    rw [Bool.eq_iff_iff, List.contains_iff_mem, List.contains_iff_mem]
    exact h.mem_reached_iff
  simp only [Resolver.structTypes, hreached, Resolver.graph_ofGraph, h.types_eq, h.structRef_eq]

theorem enumTypes_eq (h : g.Equivalent g') :
    (Resolver.ofGraph g).enumTypes = (Resolver.ofGraph g').enumTypes := by
  rw [Resolver.enumTypes, Resolver.enumTypes, Resolver.graph_ofGraph, Resolver.graph_ofGraph,
    h.types_eq, h.resolveName_eq]

end TypeGraph.Equivalent

/-! ## Undefined names -/

namespace TypeGraph

/-- Samples leave the types of members. -/
theorem memberTypes_populate (g : TypeGraph) (values : Document) :
    (g.populate values).memberTypes = g.memberTypes := by
  have hbare : ∀ g : TypeGraph, g.bare.memberTypes = g.memberTypes := fun g =>
    memberTypes_mapMembers g fun _ => rfl
  rw [← hbare, bare_populate, hbare]

theorem Equivalent.mem_memberTypes_iff {g g' : TypeGraph} (h : g.Equivalent g') {type : TypeExpr} :
    type ∈ g.memberTypes ↔ type ∈ g'.memberTypes := by
  simp only [memberTypes, List.mem_filterMap, h.mem_members_iff]

/-- Every name of a type that is not built in has one spelling. -/
def Spelled (g : TypeGraph) : Prop :=
  ∀ type ∈ g.memberTypes, ∀ type' ∈ g.memberTypes,
    Builtin.isName type.base = false → Builtin.isName type'.base = false →
      keyOf type.base = keyOf type'.base → type.base = type'.base

theorem Spelled.populate {g : TypeGraph} (hg : g.Spelled) (values : Document) :
    (g.populate values).Spelled := by
  rw [Spelled, memberTypes_populate]
  exact hg

end TypeGraph

namespace Resolver

variable {r : Resolver} {types : List TypeExpr}

/-- Where undefined names have one spelling, all are found that are not seen before. -/
theorem mem_unresolvedNames_iff
    (hspelled : ∀ type ∈ types, ∀ type' ∈ types, ∀ e e', r.resolve type = .error e →
      r.resolve type' = .error e' → keyOf e.name = keyOf e'.name → e = e')
    {seen : List String} {name : String} :
    name ∈ r.unresolvedNames types seen ↔
      keyOf name ∉ seen ∧ ∃ type ∈ types, r.resolve type = .error ⟨name⟩ := by
  constructor
  · intro h
    exact ⟨(mem_keys_unresolvedNames_iff.mp (List.mem_map_of_mem h)).1,
      exists_type_of_mem_unresolvedNames h⟩
  · rintro ⟨hnew, type, htype, hundefined⟩
    have hkey : keyOf name ∈ (r.unresolvedNames types seen).map keyOf :=
      mem_keys_unresolvedNames_iff.mpr ⟨hnew, type, htype, _, hundefined, rfl⟩
    obtain ⟨other, hother, hsame⟩ := List.mem_map.mp hkey
    obtain ⟨type', htype', hundefined'⟩ := exists_type_of_mem_unresolvedNames hother
    cases hspelled type' htype' type htype _ _ hundefined' hundefined hsame
    exact hother

end Resolver

namespace TypeGraph

variable {g g' : TypeGraph}

theorem Spelled.one_error (hg : g.Spelled) (r : Resolver) :
    ∀ type ∈ g.memberTypes, ∀ type' ∈ g.memberTypes, ∀ e e', r.resolve type = .error e →
      r.resolve type' = .error e' → keyOf e.name = keyOf e'.name → e = e' := by
  intro type htype type' htype' e e' he he' hkey
  obtain ⟨hname, hbase⟩ := Resolver.eq_base_of_resolve_eq_error he
  obtain ⟨hname', hbase'⟩ := Resolver.eq_base_of_resolve_eq_error he'
  rw [hname, hname'] at hkey
  have hsame : type.base = type'.base := hg type htype type' htype' hbase hbase' hkey
  cases e
  cases e'
  rw [Unresolved.mk.injEq]
  exact hname.trans (hsame.trans hname'.symm)

theorem Equivalent.undefinedTypes_eq (h : g.Equivalent g') (hg : g.Spelled) :
    (Resolver.ofGraph g).undefinedTypes = (Resolver.ofGraph g').undefinedTypes := by
  have hg' : g'.Spelled := by
    intro type htype type' htype'
    exact hg type (h.mem_memberTypes_iff.mpr htype) type' (h.mem_memberTypes_iff.mpr htype')
  have hperm : ((Resolver.ofGraph g).unresolvedNames g.memberTypes []).Perm
      ((Resolver.ofGraph g').unresolvedNames g'.memberTypes []) := by
    refine (List.perm_ext_iff_of_nodup (Resolver.nodup_keys_unresolvedNames _ _).of_map
      (Resolver.nodup_keys_unresolvedNames _ _).of_map).mpr fun name => ?_
    rw [Resolver.mem_unresolvedNames_iff (hg.one_error _),
      Resolver.mem_unresolvedNames_iff (hg'.one_error _), h.resolve_eq]
    simp only [h.mem_memberTypes_iff]
  exact Keyed.mergeSort_eq_of_perm id hperm fun _ _ _ _ hsame => hsame

end TypeGraph

end AnnotatedValues
