import AnnotatedValues.Proofs.Graph.Samples
import AnnotatedValues.Proofs.Resolved.Emitted

/-!
# Declared structs

A node can be reached if a parameter's type holds it, if it is a declared type
with fields, or if the type of a field of such a node holds it.  Structs may
hold themselves, so this is an inductive predicate; the structs that are
declared are the nodes that satisfy it, except enumerations and nodes that are
spelled like a built-in type.
-/

namespace AnnotatedValues

namespace Resolved

/-- A type is a struct, or pointers, arrays and maps around it. -/
inductive Wraps (ref : StructRef) : Resolved → Prop where
  | struct : Wraps ref (.struct ref)
  | pointer {inner : Resolved} (h : Wraps ref inner) : Wraps ref (.pointer inner)
  | array {inner : Resolved} (h : Wraps ref inner) : Wraps ref (.array inner)
  | map {inner : Resolved} (h : Wraps ref inner) : Wraps ref (.map inner)

theorem wraps_iff_innermost? {t : Resolved} {ref : StructRef} :
    t.Wraps ref ↔ t.innermost? = some ref := by
  constructor
  · intro h
    induction h with
    | struct => rfl
    | pointer _ ih | array _ ih | map _ ih => exact ih
  · intro h
    induction t with
    | pointer _ ih => exact .pointer (ih h)
    | array _ ih => exact .array (ih h)
    | map _ ih => exact .map (ih h)
    | struct _ =>
        cases h
        exact .struct
    | primitive _ | format _ | semantic _ | enum _ => cases h

end Resolved

namespace Resolver

variable {r : Resolver} {key other : String}

/-- The type of the values at a slot wraps the struct of a node. -/
def Holds (r : Resolver) (slot : Slot) (key : String) : Prop :=
  ∃ t ref, r.resolveSlot slot = .ok t ∧ t.Wraps ref ∧ ref.key = key

theorem holds_of_bind_innermost? {slot : Slot}
    (h : ∃ ref, (r.resolveSlot slot).toOption.bind Resolved.innermost? = some ref ∧ ref.key = key) :
    r.Holds slot key := by
  obtain ⟨ref, href, hkey⟩ := h
  obtain ⟨t, ht, hinner⟩ := Fallible.bind_toOption_eq_some_iff.mp href
  exact ⟨t, ref, ht, Resolved.wraps_iff_innermost?.mpr hinner, hkey⟩

/-- A node that some value can contain, or that is a declared type with fields. -/
inductive Reachable (r : Resolver) : String → Prop where
  | param {param key : String} (hparam : r.graph.HasMember (.node param))
      (hholds : r.Holds (.node param) key) : Reachable r key
  | typedef {key : String} {node : Node} (hnode : r.graph.node? key = some node)
      (htypedef : node.isTypedef = true) (hfields : r.graph.hasFields key = true) : Reachable r key
  | field {owner name key : String} (howner : Reachable r owner)
      (hfield : r.graph.HasMember (.field owner name))
      (hholds : r.Holds (.field owner name) key) : Reachable r key

theorem mem_roots_iff (hg : r.graph.WellFormed) :
    key ∈ r.roots ↔ (∃ param, r.graph.HasMember (.node param) ∧ r.Holds (.node param) key) ∨
      ∃ node, r.graph.node? key = some node ∧ node.isTypedef = true ∧
        r.graph.hasFields key = true := by
  simp only [mem_roots, Holds, Resolved.wraps_iff_innermost?, TypeGraph.HasMember]
  refine or_congr_right (exists_congr fun node => and_congr_left fun _ => ?_)
  exact ⟨hg.node?_of_mem, TypeGraph.mem_nodes_of_node?⟩

theorem contains_iff :
    r.Contains key other ↔
      ∃ name, r.graph.HasMember (.field key name) ∧ r.Holds (.field key name) other := by
  simp only [Contains, mem_successors, Holds, Resolved.wraps_iff_innermost?]
  constructor
  · rintro ⟨field, hfield, hholds⟩
    exact ⟨field.name, TypeGraph.hasMember_of_mem_fieldsOf hfield, hholds⟩
  · rintro ⟨name, hfield, hholds⟩
    obtain ⟨field, hmem, rfl⟩ := TypeGraph.hasMember_field_iff.mp hfield
    exact ⟨field, hmem, hholds⟩

/-- The search finds exactly the nodes that can be reached. -/
theorem mem_reached_iff_reachable (hg : r.graph.WellFormed) :
    key ∈ r.reached ↔ r.Reachable key := by
  constructor
  · intro h
    obtain ⟨root, hroot, hpath⟩ := (mem_reached_iff hg).mp h
    induction hpath with
    | refl =>
        rcases (mem_roots_iff hg).mp hroot with
          ⟨param, hparam, hholds⟩ | ⟨node, hnode, htypedef, hfields⟩
        · exact .param hparam hholds
        · exact .typedef hnode htypedef hfields
    | tail hpath hedge ih =>
        obtain ⟨name, hfield, hholds⟩ := contains_iff.mp hedge
        exact .field (ih ((mem_reached_iff hg).mpr ⟨_, hroot, hpath⟩)) hfield hholds
  · intro h
    induction h with
    | param hparam hholds =>
        exact mem_reached_of_mem_roots hg ((mem_roots_iff hg).mpr (Or.inl ⟨_, hparam, hholds⟩))
    | typedef hnode htypedef hfields =>
        exact mem_reached_of_mem_roots hg
          ((mem_roots_iff hg).mpr (Or.inr ⟨_, hnode, htypedef, hfields⟩))
    | field _ hfield hholds ih =>
        exact mem_reached_of_contains hg ih (contains_iff.mpr ⟨_, hfield, hholds⟩)

end Resolver

namespace TypeGraph

open Fallible Resolver

variable {g : TypeGraph}

theorem WellFormed.pairwise_ident_structTypes (hg : g.WellFormed) :
    (ofGraph g).structTypes.Pairwise fun a b => a.ident < b.ident := by
  have hkeys := nodup_structTypes (r := .ofGraph g) hg
  have hidents : ((ofGraph g).structTypes.map (·.ident)).Nodup := by
    refine List.Nodup.map_on ?_ (List.Nodup.of_map _ hkeys)
    intro ref href ref' href' hident
    obtain ⟨key, -, -, hreached, -, -, rfl⟩ := mem_structTypes.mp href
    obtain ⟨key', -, -, hreached', -, -, rfl⟩ := mem_structTypes.mp href'
    have hkey : key = key' := ident_injective (isType_of_mem_reached hg hreached)
      (isType_of_mem_reached hg hreached') hident
    rw [hkey]
  rw [structTypes, ((List.mergeSort_perm _ _).map _).nodup_iff] at hidents
  exact Keyed.pairwise_lt_mergeSort StructRef.ident hidents

/-- The declared structs are the nodes that can be reached, except enumerations and nodes spelled
like a built-in type, each once and by identifier. -/
theorem WellFormed.structTypes_exact (hg : g.WellFormed) :
    (∀ key node, g.node? key = some node →
      (key ∈ (ofGraph g).structTypes.map (·.key) ↔
        node.enum? = none ∧ Builtin.isName node.name = false ∧ (ofGraph g).Reachable key)) ∧
      (∀ ref ∈ (ofGraph g).structTypes,
        (g.node? ref.key).isSome = true ∧ ref = (ofGraph g).structRef ref.key) ∧
      ((ofGraph g).structTypes.map (·.key)).Nodup ∧
      (ofGraph g).structTypes.Pairwise fun a b => a.ident < b.ident := by
  refine ⟨fun key node hnode => ?_, fun ref href => ?_, nodup_structTypes (r := .ofGraph g) hg,
    hg.pairwise_ident_structTypes⟩
  · rw [mem_keys_structTypes (r := .ofGraph g) hg hnode,
      mem_reached_iff_reachable (r := .ofGraph g) hg]
    exact and_rotate
  · obtain ⟨key, node, hmem, -, -, -, rfl⟩ := mem_structTypes.mp href
    exact ⟨Option.isSome_iff_exists.mpr ⟨node, hg.node?_of_mem hmem⟩, rfl⟩

/-- A struct that holds itself, an enumeration without values that has fields, and a type that is
not defined. -/
def heldRows : List Annotation.Row :=
  [⟨.param, ["tree"], "map[string][]Branch", [], "", "", false, 1⟩,
    ⟨.field, ["branch", "parent"], "*branch", [], "", "", false, 2⟩,
    ⟨.field, ["branch", "root"], "Root", [], "", "", false, 3⟩,
    ⟨.field, ["branch", "twigs"], "[]Twig", [], "", "", false, 4⟩,
    ⟨.enum, ["twig"], "string", [], "", "", false, 5⟩,
    ⟨.field, ["twig", "leaves"], "int", [], "", "", false, 6⟩]

/-- The enumeration is reached through the struct, but only the struct is declared. -/
theorem structTypes_heldRows :
    ∃ g, build heldRows = .ok g ∧ (ofGraph g).Reachable "branch" ∧ (ofGraph g).Reachable "twig" ∧
      "branch" ∈ (ofGraph g).structTypes.map (·.key) ∧
        "twig" ∉ (ofGraph g).structTypes.map (·.key) := by
  have hbuild : ((build heldRows).toOption.map fun g =>
      (g.params.contains "tree" && (g.field? "branch" "twigs").isSome,
        [Slot.node "tree", .field "branch" "twigs"].map fun slot =>
          (((ofGraph g).resolveSlot slot).toOption.bind Resolved.innermost?).map (·.key),
        ["branch", "twig"].map fun key =>
          (g.node? key).map fun node => (node.enum?.isNone, Builtin.isName node.name))) =
      some (true, [some "branch", some "twig"], [some (true, false), some (false, false)]) := by
    decide +kernel
  obtain ⟨g, hg, hgraph⟩ := map_toOption_eq_some_iff.mp hbuild
  simp only [Prod.mk.injEq, Bool.and_eq_true, List.contains_iff_mem, List.map_cons, List.map_nil,
    List.cons.injEq, and_true, Option.map_eq_some_iff] at hgraph
  obtain ⟨⟨hparam, hfield⟩, ⟨htree, htwigs⟩, ⟨node, hnode, hnone, hname⟩, twig, htwig, hsome, -⟩ :=
    hgraph
  have hslot : (ofGraph g).graph.HasMember (.node "tree") := hparam
  have hbranchReachable := Reachable.param hslot (holds_of_bind_innermost? htree)
  have htwigReachable := hbranchReachable.field hfield (holds_of_bind_innermost? htwigs)
  obtain ⟨hexact, -⟩ := (WellFormed.build hg).structTypes_exact
  refine ⟨g, hg, hbranchReachable, htwigReachable, ?_, fun hmem => ?_⟩
  · rw [Option.isNone_iff_eq_none] at hnone
    exact (hexact "branch" node hnode).mpr ⟨hnone, hname, hbranchReachable⟩
  · obtain ⟨henum, -⟩ := (hexact "twig" twig htwig).mp hmem
    rw [henum] at hsome
    cases hsome

end TypeGraph

end AnnotatedValues
