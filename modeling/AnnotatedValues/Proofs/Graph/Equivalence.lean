import AnnotatedValues.Proofs.Graph.Descent

/-!
# Graphs that differ in order only

Two graphs are equivalent if they have the same node at every key and the same
field at every slot.  Whatever is read off a graph by a key or a slot, or listed
in the order of names, is then the same; and samples keep two graphs equivalent.
-/

namespace AnnotatedValues.TypeGraph

/-- Two well-formed graphs with the same nodes and fields, listed in whatever order. -/
structure Equivalent (g g' : TypeGraph) : Prop where
  left : g.WellFormed
  right : g'.WellFormed
  node? : ∀ key, g.node? key = g'.node? key
  field? : ∀ owner name, g.field? owner name = g'.field? owner name

theorem WellFormed.field?_of_mem {g : TypeGraph} (hg : g.WellFormed) {field : Field}
    (h : field ∈ g.fields) : g.field? field.owner field.name = some field := by
  have hsome : (g.field? field.owner field.name).isSome = true := by
    rw [TypeGraph.field?, List.find?_isSome]
    exact ⟨field, h, by simp⟩
  obtain ⟨found, hfound⟩ := Option.isSome_iff_exists.mp hsome
  obtain ⟨hmem, howner, hname⟩ := field?_eq_some hfound
  have hsame : found = field :=
    List.inj_on_of_nodup_map hg.fields_nodup hmem h (Prod.ext howner hname)
  rw [hfound, hsame]

namespace Equivalent

variable {g g' : TypeGraph}

/-! ## Lists of nodes, fields and parameters -/

theorem perm_nodes (h : g.Equivalent g') : g.nodes.Perm g'.nodes :=
  Keyed.perm_of_lookup_eq h.left.keys_nodup h.right.keys_nodup h.node?

theorem perm_fields (h : g.Equivalent g') : g.fields.Perm g'.fields := by
  refine (List.perm_ext_iff_of_nodup (List.Nodup.of_map _ h.left.fields_nodup)
    (List.Nodup.of_map _ h.right.fields_nodup)).mpr fun field => ?_
  constructor
  · intro hmem
    have hfield := h.left.field?_of_mem hmem
    rw [h.field?] at hfield
    exact (field?_eq_some hfield).1
  · intro hmem
    have hfield := h.right.field?_of_mem hmem
    rw [← h.field?] at hfield
    exact (field?_eq_some hfield).1

theorem mem_params_iff (h : g.Equivalent g') {key : String} : key ∈ g.params ↔ key ∈ g'.params := by
  rw [h.left.mem_params, h.right.mem_params, h.node?]

theorem perm_params (h : g.Equivalent g') : g.params.Perm g'.params :=
  (List.perm_ext_iff_of_nodup h.left.params_nodup h.right.params_nodup).mpr fun _ =>
    h.mem_params_iff

theorem length_nodes (h : g.Equivalent g') : g.nodes.length = g'.nodes.length :=
  h.perm_nodes.length_eq

theorem nameOf_eq (h : g.Equivalent g') : g.nameOf = g'.nameOf := by
  funext key
  rw [nameOf, nameOf, h.node?]

theorem hasFields_eq (h : g.Equivalent g') : g.hasFields = g'.hasFields := by
  funext key
  rw [Bool.eq_iff_iff, hasFields_iff, hasFields_iff]
  simp only [h.field?]

theorem types_eq (h : g.Equivalent g') : g.types = g'.types := by
  refine Keyed.mergeSort_eq_of_perm Prod.fst h.perm_nodes ?_
  intro entry hentry other hother hkey
  exact List.inj_on_of_nodup_map h.left.keys_nodup hentry hother hkey

theorem fieldsOf_eq (h : g.Equivalent g') : g.fieldsOf = g'.fieldsOf := by
  funext key
  refine Keyed.mergeSort_eq_of_perm (·.name) (h.perm_fields.filter _) ?_
  intro field hfield other hother hname
  obtain ⟨hmem, howner⟩ := List.mem_filter.mp hfield
  obtain ⟨hmem', howner'⟩ := List.mem_filter.mp hother
  rw [beq_iff_eq] at howner howner'
  exact List.inj_on_of_nodup_map h.left.fields_nodup hmem hmem'
    (Prod.ext (howner.trans howner'.symm) hname)

theorem sortedParams_eq (h : g.Equivalent g') : g.sortedParams = g'.sortedParams := by
  unfold sortedParams
  rw [← h.nameOf_eq]
  refine Keyed.mergeSort_eq_of_perm g.nameOf h.perm_params ?_
  intro key hkey other hother hname
  have hparam := h.left.param?_nameOf hkey
  rw [hname, h.left.param?_nameOf hother] at hparam
  exact (Option.some.inj hparam).symm

/-! ## Look-ups -/

theorem lookup?_eq (h : g.Equivalent g') : g.lookup? = g'.lookup? := by
  funext name
  rw [lookup?, lookup?, h.node?]

theorem param?_eq (h : g.Equivalent g') : g.param? = g'.param? := by
  funext name
  rw [param?, param?, h.node?]

theorem member?_eq (h : g.Equivalent g') : g.member? = g'.member? := by
  funext slot
  cases slot with
  | node key => rw [member?, member?, h.node?]
  | field owner name => rw [member?, member?, h.field?]

theorem slotOf?_eq (h : g.Equivalent g') : g.slotOf? = g'.slotOf? := by
  funext owner? name
  cases owner? with
  | none => rw [slotOf?, slotOf?, h.param?_eq]
  | some owner => rw [slotOf?, slotOf?, h.field?]

theorem structOf?_eq (h : g.Equivalent g') : g.structOf? = g'.structOf? := by
  funext m
  rw [structOf?, structOf?, h.lookup?_eq, h.hasFields_eq]

theorem structAt?_eq (h : g.Equivalent g') : g.structAt? = g'.structAt? := by
  funext slot
  cases slot with
  | node key => rw [structAt?, structAt?, h.hasFields_eq, h.member?_eq, h.structOf?_eq]
  | field owner name => rw [structAt?, structAt?, h.member?_eq, h.structOf?_eq]

theorem mem_members_iff (h : g.Equivalent g') {m : Member} : m ∈ g.members ↔ m ∈ g'.members := by
  have hperm : g.members.Perm g'.members :=
    (h.perm_nodes.map _).append (h.perm_fields.map _)
  exact hperm.mem_iff

/-! ## Samples -/

theorem setSample (h : g.Equivalent g') (slot : Slot) (text : String) :
    (setSample slot text g).Equivalent (TypeGraph.setSample slot text g') := by
  refine ⟨h.left.setSample slot text, h.right.setSample slot text, ?_, ?_⟩
  · intro key
    unfold TypeGraph.setSample
    cases slot with
    | node other => rw [node?_updateMember_node, node?_updateMember_node, h.node?]
    | field owner name => rw [node?_updateMember_field, node?_updateMember_field, h.node?]
  · intro owner name
    unfold TypeGraph.setSample
    cases slot with
    | node key => rw [field?_updateMember_node, field?_updateMember_node, h.field?]
    | field other otherName =>
        rw [field?_updateMember_field, field?_updateMember_field, h.field?]

mutual

theorem sampleValue (path : List String) (slot : Slot) {g g' : TypeGraph} (h : g.Equivalent g') :
    (d : Document) →
      (sampleValue path slot g d).Equivalent (TypeGraph.sampleValue path slot g' d)
  | .null => h
  | .bool b => h.setSample slot _
  | .number n => h.setSample slot _
  | .string s => h.setSample slot _
  | .array items => h.setSample slot _
  | .object entries => by
      rw [TypeGraph.sampleValue, TypeGraph.sampleValue, h.structAt?_eq]
      refine Equivalent.setSample ?_ slot _
      split
      · rename_i owner _
        split
        · exact h
        · exact sampleEntries (owner :: path) (some owner) h entries
      · exact h
termination_by structural d => d

theorem sampleEntries (path : List String) (owner? : Option String) {g g' : TypeGraph}
    (h : g.Equivalent g') : (entries : List (String × Document)) →
      (sampleEntries path owner? g entries).Equivalent
        (TypeGraph.sampleEntries path owner? g' entries)
  | [] => h
  | (key, value) :: entries => by
      rw [TypeGraph.sampleEntries, TypeGraph.sampleEntries, h.slotOf?_eq]
      refine sampleEntries path owner? ?_ entries
      split
      · rename_i slot _
        exact sampleValue path slot h value
      · exact h
termination_by structural entries => entries

end

theorem populate (h : g.Equivalent g') (values : Document) :
    (g.populate values).Equivalent (g'.populate values) :=
  sampleEntries [] none h values.entries

end Equivalent

end AnnotatedValues.TypeGraph
