import AnnotatedValues.Proofs.Graph.Steps

/-!
# Well-formed graphs

The graphs that rows can be built into keep each node under the key of its
name, each field below a node, and exactly the parameters and fields typed.
Every row keeps this, and so does every sample.
-/

namespace AnnotatedValues.TypeGraph

open Annotation Fallible

structure WellFormed (g : TypeGraph) : Prop where
  keys_nodup : (g.nodes.map Prod.fst).Nodup
  /-- A node is kept under the key of its name. -/
  keyOf_name : ∀ {key node}, g.node? key = some node → keyOf node.name = key
  fields_nodup : (g.fields.map fun f => (f.owner, f.name)).Nodup
  owner_known : ∀ {owner name field}, g.field? owner name = some field →
    (g.node? owner).isSome = true
  params_nodup : g.params.Nodup
  mem_params : ∀ {key}, key ∈ g.params ↔ ∃ node, g.node? key = some node ∧ node.isParam = true
  /-- Of the nodes, exactly the parameters have a type. -/
  node_typed : ∀ {key node}, g.node? key = some node → node.member.type?.isSome = node.isParam
  field_typed : ∀ {owner name field}, g.field? owner name = some field →
    field.member.type?.isSome = true

/-- A slot of a parameter or field. -/
def HasMember (g : TypeGraph) : Slot → Prop
  | .node key => key ∈ g.params
  | .field owner name => (g.field? owner name).isSome = true

theorem mem_fieldsOf {g : TypeGraph} {key : String} {field : Field} :
    field ∈ g.fieldsOf key ↔ field ∈ g.fields ∧ field.owner = key := by
  rw [fieldsOf, (List.mergeSort_perm _ _).mem_iff, List.mem_filter, beq_iff_eq]

theorem mem_sortedParams {g : TypeGraph} {key : String} : key ∈ g.sortedParams ↔ key ∈ g.params :=
  (List.mergeSort_perm _ _).mem_iff

theorem hasMember_of_mem_fieldsOf {g : TypeGraph} {key : String} {field : Field}
    (h : field ∈ g.fieldsOf key) : g.HasMember (.field key field.name) := by
  obtain ⟨hmem, rfl⟩ := mem_fieldsOf.mp h
  rw [HasMember, field?, List.find?_isSome]
  exact ⟨field, hmem, by simp⟩

theorem hasMember_field_iff {g : TypeGraph} {key name : String} :
    g.HasMember (.field key name) ↔ ∃ field ∈ g.fieldsOf key, field.name = name := by
  constructor
  · intro h
    obtain ⟨field, hfield⟩ := Option.isSome_iff_exists.mp h
    obtain ⟨hmem, howner, hname⟩ := field?_eq_some hfield
    exact ⟨field, mem_fieldsOf.mpr ⟨hmem, howner⟩, hname⟩
  · rintro ⟨field, hmem, rfl⟩
    exact hasMember_of_mem_fieldsOf hmem

theorem WellFormed.node?_of_mem {g : TypeGraph} (h : g.WellFormed) {key : String} {node : Node}
    (hmem : (key, node) ∈ g.nodes) : g.node? key = some node :=
  Keyed.lookup_of_mem h.keys_nodup hmem

/-! ## Members by name -/

theorem param?_eq_some_iff {g : TypeGraph} {name key : String} :
    g.param? name = some key ↔ keyOf name = key ∧
      ∃ node, g.node? key = some node ∧ node.isParam = true ∧ node.name = name := by
  unfold param?
  constructor
  · intro h
    split at h
    · rename_i node hnode
      split at h
      · rename_i hparam
        cases h
        rw [Bool.and_eq_true, beq_iff_eq] at hparam
        exact ⟨rfl, node, hnode, hparam⟩
      · cases h
    · cases h
  · rintro ⟨rfl, node, hnode, hparam, hname⟩
    rw [hnode]
    simp [hparam, hname]

theorem WellFormed.hasMember_of_param? {g : TypeGraph} (hg : g.WellFormed) {name key : String}
    (h : g.param? name = some key) : g.HasMember (.node key) := by
  obtain ⟨-, node, hnode, hparam, -⟩ := param?_eq_some_iff.mp h
  exact hg.mem_params.mpr ⟨node, hnode, hparam⟩

theorem nameOf_of_param? {g : TypeGraph} {name key : String} (h : g.param? name = some key) :
    g.nameOf key = name := by
  obtain ⟨-, node, hnode, -, hname⟩ := param?_eq_some_iff.mp h
  rw [nameOf, hnode]
  exact hname

/-- A parameter is found under its name. -/
theorem WellFormed.param?_nameOf {g : TypeGraph} (hg : g.WellFormed) {key : String}
    (hkey : key ∈ g.params) : g.param? (g.nameOf key) = some key := by
  obtain ⟨node, hnode, hparam⟩ := hg.mem_params.mp hkey
  have hname : g.nameOf key = node.name := by
    rw [nameOf, hnode]
    rfl
  rw [hname]
  exact param?_eq_some_iff.mpr ⟨hg.keyOf_name hnode, node, hnode, hparam, rfl⟩

/-- The slot of an entry of a struct is that of a field with its name. -/
theorem slotOf?_some_eq_some_iff {g : TypeGraph} {owner name : String} {slot : Slot} :
    g.slotOf? (some owner) name = some slot ↔
      slot = .field owner name ∧ g.HasMember (.field owner name) := by
  rw [slotOf?, Option.ite_none_right_eq_some, HasMember, Option.some.injEq, eq_comm (b := slot)]
  exact and_comm

theorem WellFormed.hasMember_of_slotOf? {g : TypeGraph} (hg : g.WellFormed)
    {owner : Option String} {name : String} {slot : Slot} (h : g.slotOf? owner name = some slot) :
    g.HasMember slot := by
  cases owner with
  | none =>
      obtain ⟨key, hkey, rfl⟩ := Option.map_eq_some_iff.mp h
      exact hg.hasMember_of_param? hkey
  | some owner =>
      obtain ⟨rfl, hfield⟩ := slotOf?_some_eq_some_iff.mp h
      exact hfield

/-! ## Keys of nodes and fields -/

theorem nodup_keys_ensureNode {g : TypeGraph} (name : String)
    (h : (g.nodes.map Prod.fst).Nodup) : ((g.ensureNode name).nodes.map Prod.fst).Nodup := by
  unfold ensureNode
  split
  · exact h
  · rename_i hnone
    rw [Bool.not_eq_true, Option.isSome_eq_false_iff, Option.isNone_iff_eq_none, node?,
      List.lookup_eq_none_iff] at hnone
    rw [List.map_append, List.map_singleton, Keyed.nodup_append_singleton_iff]
    refine ⟨fun hmem => ?_, h⟩
    obtain ⟨entry, hentry, hkey⟩ := List.mem_map.mp hmem
    exact bne_iff_ne.mp (hnone entry hentry) hkey.symm

theorem nodup_slots_ensureField {g : TypeGraph} (owner name : String)
    (h : (g.fields.map fun f => (f.owner, f.name)).Nodup) :
    ((g.ensureField owner name).fields.map fun f => (f.owner, f.name)).Nodup := by
  unfold ensureField
  split
  · exact h
  · rename_i hnone
    rw [Bool.not_eq_true, Option.isSome_eq_false_iff, Option.isNone_iff_eq_none, field?,
      List.find?_eq_none] at hnone
    rw [List.map_append, List.map_singleton, Keyed.nodup_append_singleton_iff]
    refine ⟨fun hmem => ?_, h⟩
    obtain ⟨field, hfield, hslot⟩ := List.mem_map.mp hmem
    cases hslot
    exact hnone field hfield (by simp)

namespace WellFormed

variable {g : TypeGraph}

/-! ## Operations on a well-formed graph -/

theorem empty : WellFormed TypeGraph.empty where
  keys_nodup := List.nodup_nil
  keyOf_name := by intro key node h; cases h
  fields_nodup := List.nodup_nil
  owner_known := by intro owner name field h; cases h
  params_nodup := List.nodup_nil
  mem_params := by
    intro key
    constructor
    · intro h; cases h
    · rintro ⟨node, h, -⟩; cases h
  node_typed := by intro key node h; cases h
  field_typed := by intro owner name field h; cases h

/-- A change to nodes and parameters by which no node goes. -/
theorem of_nodes (h : g.WellFormed) {g' : TypeGraph} (hfields : g'.fields = g.fields)
    (hkept : ∀ {key}, (g.node? key).isSome = true → (g'.node? key).isSome = true)
    (hkeys : (g'.nodes.map Prod.fst).Nodup) (hparams : g'.params.Nodup)
    (hnode : ∀ {key node}, g'.node? key = some node →
      keyOf node.name = key ∧ node.member.type?.isSome = node.isParam)
    (hmem : ∀ {key}, key ∈ g'.params ↔ ∃ node, g'.node? key = some node ∧ node.isParam = true) :
    g'.WellFormed where
  keys_nodup := hkeys
  keyOf_name hfound := (hnode hfound).1
  fields_nodup := hfields ▸ h.fields_nodup
  owner_known := by
    intro owner name field hfield
    rw [field?, hfields] at hfield
    exact hkept (h.owner_known hfield)
  params_nodup := hparams
  mem_params := hmem
  node_typed hfound := (hnode hfound).2
  field_typed := by
    intro owner name field hfield
    rw [field?, hfields] at hfield
    exact h.field_typed hfield

/-- A change to fields. -/
theorem of_fields (h : g.WellFormed) {g' : TypeGraph} (hnodes : g'.nodes = g.nodes)
    (hparams : g'.params = g.params) (hslots : (g'.fields.map fun f => (f.owner, f.name)).Nodup)
    (hfield : ∀ {owner name field}, g'.field? owner name = some field →
      (g.node? owner).isSome = true ∧ field.member.type?.isSome = true) : g'.WellFormed := by
  have hnode? : ∀ key, g'.node? key = g.node? key := fun key => by rw [node?, node?, hnodes]
  refine {
    keys_nodup := hnodes ▸ h.keys_nodup, keyOf_name := ?_, fields_nodup := hslots,
    owner_known := ?_, params_nodup := hparams ▸ h.params_nodup, mem_params := ?_,
    node_typed := ?_, field_typed := fun hfound => (hfield hfound).2 }
  · intro key node hnode
    rw [hnode?] at hnode
    exact h.keyOf_name hnode
  · intro owner name field hfound
    rw [hnode?]
    exact (hfield hfound).1
  · intro key
    rw [hparams, hnode?]
    exact h.mem_params
  · intro key node hnode
    rw [hnode?] at hnode
    exact h.node_typed hnode

theorem ensureNode (h : g.WellFormed) (name : String) : (g.ensureNode name).WellFormed := by
  refine h.of_nodes (fields_ensureNode g name) ?_ (nodup_keys_ensureNode name h.keys_nodup) ?_ ?_ ?_
  · intro key hknown
    rw [node?_ensureNode, Option.isSome_or, hknown]
    rfl
  · rw [params_ensureNode]
    exact h.params_nodup
  · intro key node hnode
    rcases eq_or_of_node?_ensureNode hnode with hold | ⟨rfl, rfl⟩
    · exact ⟨h.keyOf_name hold, h.node_typed hold⟩
    · exact ⟨rfl, rfl⟩
  · intro key
    rw [params_ensureNode, h.mem_params]
    constructor
    · rintro ⟨node, hnode, hparam⟩
      exact ⟨node, node?_ensureNode_of_eq_some hnode name, hparam⟩
    · rintro ⟨node, hnode, hparam⟩
      rcases eq_or_of_node?_ensureNode hnode with hold | ⟨rfl, rfl⟩
      · exact ⟨node, hold, hparam⟩
      · cases hparam

/-- A change to a node that keeps its spelling, whether it is a parameter, and whether it has a
type. -/
theorem updateNode (h : g.WellFormed) (key : String) {f : Node → Node}
    (hname : ∀ n, (f n).name = n.name) (hparam : ∀ n, (f n).isParam = n.isParam)
    (htype : ∀ n, (f n).member.type?.isSome = n.member.type?.isSome) :
    (g.updateNode key f).WellFormed := by
  have hnode? : ∀ other, (g.updateNode key f).node? other =
      (g.node? other).map fun old => if other = key then f old else old := by
    intro other
    rw [node?_updateNode]
    split
    · rfl
    · exact Option.map_id'.symm
  refine h.of_nodes (fields_updateNode g key f) ?_ ?_ h.params_nodup ?_ ?_
  · intro other hknown
    rw [hnode?, Option.isSome_map]
    exact hknown
  · rw [nodes_updateNode, map_fst_modifyNode]
    exact h.keys_nodup
  · intro other node hnode
    rw [hnode?] at hnode
    obtain ⟨old, hold, rfl⟩ := Option.map_eq_some_iff.mp hnode
    have hsame := And.intro (h.keyOf_name hold) (h.node_typed hold)
    split
    · rwa [hname, htype, hparam]
    · exact hsame
  · intro other
    rw [params_updateNode, h.mem_params, hnode?]
    split
    · simp [hparam]
    · simp

/-- A name that becomes a parameter, with a type. -/
theorem declareParam (h : g.WellFormed) (name : String) {f : Member → Member}
    (hf : ∀ m, (f m).type?.isSome = true) :
    ((g.ensureUntyped name).updateMember (.node (keyOf name)) f).WellFormed := by
  have hnode? : ∀ other,
      ((g.ensureUntyped name).updateMember (.node (keyOf name)) f).node? other =
        if keyOf name = other then
          some { (g.node? other).getD (.named name) with
            isParam := true, name, member := f ((g.node? other).getD (.named name)).member }
        else g.node? other := by
    intro other
    rw [node?_updateMember_node, node?_ensureUntyped]
    by_cases hother : keyOf name = other
    · rw [if_pos hother, if_pos hother, if_pos hother.symm]
      rfl
    · rw [if_neg hother, if_neg hother, if_neg (Ne.symm hother)]
  refine h.of_nodes (fields_ensureUntyped g name) ?_ ?_ ?_ ?_ ?_
  · intro other hknown
    rw [hnode?]
    split
    · rfl
    · exact hknown
  · rw [nodes_updateMember_node, map_fst_modifyNode, map_fst_ensureUntyped]
    exact nodup_keys_ensureNode name h.keys_nodup
  · rw [params_updateMember, params_ensureUntyped, ← params_ensureParam]
    exact nodup_params_ensureParam (keyOf name) h.params_nodup
  · intro other node hnode
    rw [hnode?] at hnode
    split at hnode
    · rename_i hother
      rw [← Option.some.inj hnode]
      exact ⟨hother, hf _⟩
    · exact ⟨h.keyOf_name hnode, h.node_typed hnode⟩
  · intro other
    rw [params_updateMember, params_ensureUntyped, ← params_ensureParam, mem_params_ensureParam,
      h.mem_params, hnode?]
    by_cases hother : keyOf name = other
    · simp [hother]
    · simp [hother, Ne.symm hother]

/-- A field that a node gets or that changes, with a type. -/
theorem placeField (h : g.WellFormed) {owner : String} (name : String) {f : Member → Member}
    (hf : ∀ m, (f m).type?.isSome = true) (hknown : (g.node? owner).isSome = true) :
    ((g.ensureField owner name).updateMember (.field owner name) f).WellFormed := by
  refine h.of_fields ?_ ?_ ?_ ?_
  · rw [nodes_updateMember_field, nodes_ensureField]
  · rw [params_updateMember, params_ensureField]
  · rw [map_slot_updateMember]
    exact nodup_slots_ensureField owner name h.fields_nodup
  · intro other otherName field hfield
    rw [field?_updateMember_field] at hfield
    split at hfield
    · rename_i hother
      obtain ⟨old, -, rfl⟩ := Option.map_eq_some_iff.mp hfield
      exact ⟨hother.1 ▸ hknown, hf old.member⟩
    · rename_i hother
      rw [field?_ensureField, if_neg hother, Option.or_none] at hfield
      exact ⟨h.owner_known hfield, h.field_typed hfield⟩

/-- A change to a member that keeps whether it has a type. -/
theorem updateMember (h : g.WellFormed) (slot : Slot) {f : Member → Member}
    (hf : ∀ m, (f m).type?.isSome = m.type?.isSome) : (g.updateMember slot f).WellFormed := by
  cases slot with
  | node key => exact h.updateNode key (fun _ => rfl) (fun _ => rfl) fun n => hf n.member
  | field owner name =>
      refine h.of_fields (nodes_updateMember_field g name owner f) (params_updateMember g _ f) ?_ ?_
      · rw [map_slot_updateMember]
        exact h.fields_nodup
      · intro other otherName field hfield
        rw [field?_updateMember_field] at hfield
        split at hfield
        · obtain ⟨old, hold, rfl⟩ := Option.map_eq_some_iff.mp hfield
          exact ⟨h.owner_known hold, (hf old.member).trans (h.field_typed hold)⟩
        · exact ⟨h.owner_known hfield, h.field_typed hfield⟩

/-! ## Rows -/

theorem mention (h : g.WellFormed) (type : TypeExpr) : (g.mention type).WellFormed :=
  mention_induction h (h.ensureNode type.base)

theorem declare (h : g.WellFormed) {row : Row} {g' : TypeGraph} (hg' : declare g row = .ok g') :
    g'.WellFormed := by
  cases declare_eq_ok_iff.mp hg' with
  | nothing => exact h
  | @param name _ type =>
      exact (h.declareParam name (f := rowMember row type) fun _ => rfl).mention type
  | @typedef name | @enum name =>
      exact (h.ensureNode name).updateNode _ (fun _ => rfl) (fun _ => rfl) fun _ => rfl

theorem place (h : g.WellFormed) {declared : TypeGraph} {row : Row} {placed : List Placement}
    {state' : TypeGraph × List Placement}
    (hstate' : place declared (g, placed) row = .ok state') : state'.1.WellFormed := by
  cases place_eq_ok_iff.mp hstate' with
  | nothing => exact h
  | @field parent name type =>
      have hfield := (h.ensureNode (fieldParent declared g parent)).placeField name
        (f := rowMember row type) (fun _ => rfl) (isSome_node?_ensureNode g _)
      exact hfield.mention type

/-- Every graph that rows are built into is well formed. -/
theorem build {rows : List Row} (hg : build rows = .ok g) : g.WellFormed := by
  obtain ⟨declared, hdeclared, hrest⟩ := bind_eq_ok_iff.mp hg
  obtain ⟨state, hplaced, hdiagnosed⟩ := bind_eq_ok_iff.mp hrest
  have hfirst : declared.WellFormed :=
    foldlM_induction (motive := WellFormed) (fun h hstep => h.declare hstep) empty hdeclared
  have hsecond : state.1.WellFormed :=
    foldlM_induction (motive := fun s : TypeGraph × List Placement => s.1.WellFormed)
      (fun h hstep => h.place hstep) hfirst hplaced
  rw [pure_eq_ok_iff] at hdiagnosed
  subst hdiagnosed
  exact ⟨hsecond.keys_nodup, hsecond.keyOf_name, hsecond.fields_nodup, hsecond.owner_known,
    hsecond.params_nodup, hsecond.mem_params, hsecond.node_typed, hsecond.field_typed⟩

end WellFormed

end AnnotatedValues.TypeGraph
