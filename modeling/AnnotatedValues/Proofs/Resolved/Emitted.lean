import AnnotatedValues.Proofs.Resolved.Reachability

/-!
# Types that get a declaration

A struct gets one if it is reached, an enumeration in any case, unless its node
is spelled like a type that is not declared.  What decides is the node, not the
names that refer to it: a node has one spelling, and a name refers to it in any.
-/

namespace AnnotatedValues

/-- Whether a node that is reached gets a declaration. -/
def Node.isEmitted (node : Node) : Bool :=
  !Builtin.isName node.name &&
    match node.enum? with
    | none => true
    | some decl => !decl.values.isEmpty && !Builtin.isContextual node.name

namespace Resolver

variable {r : Resolver}

/-! ## Structs and enumerations -/

theorem mem_structTypes {ref : StructRef} :
    ref ∈ r.structTypes ↔ ∃ key node, (key, node) ∈ r.graph.nodes ∧ key ∈ r.reached ∧
      node.enum? = none ∧ Builtin.isName node.name = false ∧ ref = r.structRef key := by
  rw [structTypes, (List.mergeSort_perm _ _).mem_iff]
  simp only [List.mem_map, List.mem_filter, Identifier.mem_types, Bool.and_eq_true,
    List.contains_iff_mem, Option.isNone_iff_eq_none, Bool.not_eq_true']
  constructor
  · rintro ⟨entry, ⟨hmem, ⟨hreached, henum⟩, hname⟩, rfl⟩
    exact ⟨entry.1, entry.2, hmem, hreached, henum, hname, rfl⟩
  · rintro ⟨key, node, hmem, hreached, henum, hname, rfl⟩
    exact ⟨(key, node), ⟨hmem, ⟨hreached, henum⟩, hname⟩, rfl⟩

/-- A node is declared as an enumeration under the name that it has itself. -/
theorem enum_of_name_eq_some_iff (hg : r.graph.WellFormed) {key : String} {node : Node}
    (hmem : (key, node) ∈ r.graph.nodes) {ref : EnumRef} :
    (match r.resolveName node.name with
      | .ok (.enum ref') => some ref'
      | _ => none) = some ref ↔
      Builtin.isName node.name = false ∧ Builtin.isContextual node.name = false ∧
        r.enumRef? key = some ref := by
  rw [← hg.keyOf_name (hg.node?_of_mem hmem), ← resolveName_eq_enum_iff hg]
  cases r.resolveName node.name with
  | error e => simp
  | ok t => cases t <;> simp

theorem mem_enumTypes (hg : r.graph.WellFormed) {ref : EnumRef} :
    ref ∈ r.enumTypes ↔ ∃ key node, (key, node) ∈ r.graph.nodes ∧
      Builtin.isName node.name = false ∧ Builtin.isContextual node.name = false ∧
        r.enumRef? key = some ref := by
  rw [enumTypes, (List.mergeSort_perm _ _).mem_iff, List.mem_filterMap]
  simp only [List.mem_filter, Identifier.mem_types]
  constructor
  · rintro ⟨⟨key, node⟩, ⟨hmem, -⟩, href⟩
    exact ⟨key, node, hmem, (enum_of_name_eq_some_iff hg hmem).mp href⟩
  · rintro ⟨key, node, hmem, href⟩
    refine ⟨(key, node), ⟨hmem, ?_⟩, (enum_of_name_eq_some_iff hg hmem).mpr href⟩
    obtain ⟨node', decl, hnode, hdecl, -⟩ := enumRef?_eq_some href.2.2
    rw [hg.node?_of_mem hmem] at hnode
    cases hnode
    simp [hdecl]

/-! ## One declaration for each type -/

theorem nodup_keys_types (hg : r.graph.WellFormed) : (r.graph.types.map Prod.fst).Nodup :=
  (((List.mergeSort_perm _ _).map Prod.fst).nodup_iff).mpr hg.keys_nodup

theorem nodup_structTypes (hg : r.graph.WellFormed) : (r.structTypes.map (·.key)).Nodup := by
  rw [structTypes, ((List.mergeSort_perm _ _).map _).nodup_iff, List.map_map]
  exact (nodup_keys_types hg).sublist (List.filter_sublist.map Prod.fst)

theorem nodup_enumTypes (hg : r.graph.WellFormed) : (r.enumTypes.map (·.key)).Nodup := by
  rw [enumTypes, ((List.mergeSort_perm _ _).map _).nodup_iff, List.Nodup, List.pairwise_map,
    List.pairwise_filterMap]
  have hkeys : (r.graph.types.filter fun t => t.2.enum?.isSome).Pairwise fun a b => a.1 ≠ b.1 :=
    List.pairwise_map.mp ((nodup_keys_types hg).sublist (List.filter_sublist.map Prod.fst))
  refine hkeys.imp_of_mem ?_
  intro a b ha hb hne ref href ref' href' hsame
  have ha := Identifier.mem_types.mp (List.mem_of_mem_filter ha)
  have hb := Identifier.mem_types.mp (List.mem_of_mem_filter hb)
  obtain ⟨-, -, href⟩ := (enum_of_name_eq_some_iff hg ha).mp href
  obtain ⟨-, -, href'⟩ := (enum_of_name_eq_some_iff hg hb).mp href'
  exact hne ((key_of_enumRef? href).symm.trans (hsame.trans (key_of_enumRef? href')))

/-- The keys of the structs and enumerations that get a declaration. -/
def declaredKeys (r : Resolver) : List String :=
  r.structTypes.map (·.key) ++ r.enumTypes.map (·.key)

theorem nodup_declaredKeys (hg : r.graph.WellFormed) : r.declaredKeys.Nodup := by
  rw [declaredKeys, List.nodup_append]
  refine ⟨nodup_structTypes hg, nodup_enumTypes hg, ?_⟩
  rintro key hstruct _ henum rfl
  obtain ⟨ref, href, rfl⟩ := List.mem_map.mp hstruct
  obtain ⟨ref', href', hkey⟩ := List.mem_map.mp henum
  obtain ⟨key, node, hmem, -, hnone, -, rfl⟩ := mem_structTypes.mp href
  obtain ⟨key', node', hmem', -, -, hvalues⟩ := (mem_enumTypes hg).mp href'
  obtain ⟨node'', decl, hnode'', hdecl, -, hkey', -⟩ := enumRef?_eq_some hvalues
  have hsame : key' = key := hkey'.symm.trans hkey
  rw [hsame, hg.node?_of_mem hmem] at hnode''
  cases hnode''
  rw [hnone] at hdecl
  cases hdecl

theorem isType_of_mem_declaredKeys (hg : r.graph.WellFormed) {key : String}
    (h : key ∈ r.declaredKeys) : r.IsType key := by
  rcases List.mem_append.mp h with hstruct | henum
  · obtain ⟨ref, href, rfl⟩ := List.mem_map.mp hstruct
    obtain ⟨key, node, -, hreached, -, -, rfl⟩ := mem_structTypes.mp href
    exact isType_of_mem_reached hg hreached
  · obtain ⟨ref, href, rfl⟩ := List.mem_map.mp henum
    obtain ⟨key, node, -, -, -, hvalues⟩ := (mem_enumTypes hg).mp href
    obtain ⟨node', decl, hnode, hdecl, -, hkey, -⟩ := enumRef?_eq_some hvalues
    rw [hkey]
    exact ⟨node', TypeGraph.mem_nodes_of_node? hnode, by simp [Identifier.isNamedType, hdecl]⟩

theorem map_ident_declaredKeys (hg : r.graph.WellFormed) :
    r.declaredKeys.map r.ident = r.structTypes.map (·.ident) ++ r.enumTypes.map (·.ident) := by
  rw [declaredKeys, List.map_append, List.map_map, List.map_map]
  congr 1
  · refine List.map_congr_left fun ref href => ?_
    obtain ⟨key, node, -, -, -, -, rfl⟩ := mem_structTypes.mp href
    rfl
  · refine List.map_congr_left fun ref href => ?_
    obtain ⟨key, node, -, -, -, hvalues⟩ := (mem_enumTypes hg).mp href
    obtain ⟨_, _, -, -, -, hkey, hident⟩ := enumRef?_eq_some hvalues
    rw [Function.comp_apply, hkey, hident]

section

variable {key : String} {node : Node}

theorem mem_keys_structTypes (hg : r.graph.WellFormed) (hnode : r.graph.node? key = some node) :
    key ∈ r.structTypes.map (·.key) ↔
      key ∈ r.reached ∧ node.enum? = none ∧ Builtin.isName node.name = false := by
  constructor
  · intro h
    obtain ⟨ref, href, rfl⟩ := List.mem_map.mp h
    obtain ⟨key, node', hmem, hreached, henum, hname, rfl⟩ := mem_structTypes.mp href
    rw [structRef, hg.node?_of_mem hmem] at hnode
    cases hnode
    exact ⟨hreached, henum, hname⟩
  · rintro ⟨hreached, henum, hname⟩
    exact List.mem_map.mpr ⟨r.structRef key, mem_structTypes.mpr
      ⟨key, node, TypeGraph.mem_nodes_of_node? hnode, hreached, henum, hname, rfl⟩, rfl⟩

theorem mem_keys_enumTypes (hg : r.graph.WellFormed) (hnode : r.graph.node? key = some node) :
    key ∈ r.enumTypes.map (·.key) ↔ Builtin.isName node.name = false ∧
      Builtin.isContextual node.name = false ∧ ∃ ref, r.enumRef? key = some ref := by
  constructor
  · intro h
    obtain ⟨ref, href, hkey⟩ := List.mem_map.mp h
    obtain ⟨key', node', hmem, hname, hcontextual, hvalues⟩ := (mem_enumTypes hg).mp href
    have hsame : key' = key := (key_of_enumRef? hvalues).symm.trans hkey
    rw [hsame] at hmem hvalues
    rw [hg.node?_of_mem hmem] at hnode
    cases hnode
    exact ⟨hname, hcontextual, ref, hvalues⟩
  · rintro ⟨hname, hcontextual, ref, hvalues⟩
    exact List.mem_map.mpr ⟨ref, (mem_enumTypes hg).mpr
      ⟨key, node, TypeGraph.mem_nodes_of_node? hnode, hname, hcontextual, hvalues⟩,
      key_of_enumRef? hvalues⟩

/-- What decides whether a node gets a declaration. -/
theorem mem_declaredKeys (hg : r.graph.WellFormed) (hnode : r.graph.node? key = some node) :
    key ∈ r.declaredKeys ↔ node.isEmitted = true ∧ (node.enum? = none → key ∈ r.reached) := by
  rw [declaredKeys, List.mem_append, mem_keys_structTypes hg hnode, mem_keys_enumTypes hg hnode,
    exists_enumRef?_iff hnode, Node.isEmitted]
  cases node.enum? with
  | none => simp [and_comm]
  | some decl => simp [and_comm]

end

end Resolver

end AnnotatedValues
