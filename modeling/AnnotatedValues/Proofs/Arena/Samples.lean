import AnnotatedValues.Proofs.Arena.Graph
import AnnotatedValues.Proofs.Graph.WellFormed

/-!
# Samples in an arena

A single sample changes no link, and in the graph it is the sample of the slot
that the cell stands for.  The cells whose children are followed into stand for
the structs that the graph follows, so that sampling a document and forgetting
positions can be done in either order.
-/

namespace AnnotatedValues.Arena

variable {a : Arena} {id parent owner : Id} {key name : String} {path : List Id}

/-! ## Samples keep the links -/

mutual

/-- What single samples keep, sampling a value keeps, -/
theorem sampleValue_induction {motive : Arena → Prop}
    (step : ∀ id text a, motive a → motive (setSample id text a)) (path : List Id)
    (id : Id) (a : Arena) (ha : motive a) : (d : Document) → motive (sampleValue path id a d)
  | .null => ha
  | .bool _ => step id _ a ha
  | .number _ => step id _ a ha
  | .string _ => step id _ a ha
  | .array _ => step id _ a ha
  | .object entries => by
      rw [sampleValue]
      refine step id _ _ ?_
      split
      · rename_i owner _
        split
        · exact ha
        · exact sampleEntries_induction step (owner :: path) owner a ha entries
      · exact ha
termination_by structural d => d

/-- and so does sampling the entries of an object. -/
theorem sampleEntries_induction {motive : Arena → Prop}
    (step : ∀ id text a, motive a → motive (setSample id text a)) (path : List Id)
    (owner : Id) (a : Arena) (ha : motive a) :
    (entries : List (String × Document)) → motive (sampleEntries path owner a entries)
  | [] => ha
  | (key, value) :: entries => by
      rw [sampleEntries]
      refine sampleEntries_induction step path owner _ ?_ entries
      split
      · rename_i id _
        exact sampleValue_induction step path id a ha value
      · exact ha
termination_by structural entries => entries

end

/-- The second arena is linked, and its cells have the parents and names of the first. -/
structure Resampled (a a' : Arena) : Prop where
  linked : a'.Linked
  parent?_eq : a'.parent? = a.parent?
  nameOf_eq : a'.nameOf = a.nameOf

namespace Resampled

variable {a' : Arena}

theorem setSample (h : a.Resampled a') (id : Id) (text : String) :
    a.Resampled (setSample id text a') where
  linked := h.linked.updateMember (Or.inr fun m => by split <;> rfl)
  parent?_eq := (parent?_updateNode a' id _).trans h.parent?_eq
  nameOf_eq := (nameOf_updateMember _).trans h.nameOf_eq

theorem sampleValue (h : a.Linked) (path : List Id) (id : Id) (d : Document) :
    a.Resampled (sampleValue path id a d) :=
  sampleValue_induction (fun id text _ h => h.setSample id text) path id a ⟨h, rfl, rfl⟩ d

theorem sampleEntries (h : a.Linked) (path : List Id) (owner : Id)
    (entries : List (String × Document)) : a.Resampled (sampleEntries path owner a entries) :=
  sampleEntries_induction (fun id text _ h => h.setSample id text) path owner a ⟨h, rfl, rfl⟩ entries

theorem keyAt_eq (h : a.Resampled a') : a'.keyAt = a.keyAt := by
  funext id
  rw [keyAt, keyAt, h.nameOf_eq]

theorem slot_eq (h : a.Resampled a') : a'.slot = a.slot := by
  funext id
  rw [slot, slot, h.parent?_eq, h.keyAt_eq, h.nameOf_eq]

end Resampled

/-! ## Where samples go -/

/-- The key of a node whose fields an object has, or none for the document itself. -/
def ownerKey? (a : Arena) (owner : Id) : Option String :=
  if owner = root then none else some (a.keyAt owner)

namespace Linked

theorem graph_setSample (h : a.Linked) (hid : a.parent? id = some parent) (text : String) :
    (setSample id text a).graph = TypeGraph.setSample (a.slot id) text a.graph :=
  h.graph_updateMember hid _

theorem member?_graph (h : a.Linked) {c : Cell} (hc : a.cells[id]? = some c)
    (hid : a.parent? id = some parent) : a.graph.member? (a.slot id) = some c.node.member := by
  have hparent : c.parent? = some parent := (parent?_of_getElem? hc).symm.trans hid
  by_cases hroot : parent = root
  · subst hroot
    rw [slot_of_root hid, TypeGraph.member?, h.node?_graph_of_cell hc hparent]
    rfl
  · rw [slot_of_ne hid hroot, TypeGraph.member?, h.field?_graph_of_cell hc hparent hroot]
    rfl

theorem hasFields_graph (h : a.Linked) (hid : a.parent? id = some root) :
    a.graph.hasFields (a.keyAt id) = !(a.childrenOf id).isEmpty := by
  rw [Bool.eq_iff_iff, TypeGraph.hasFields_iff, Bool.not_eq_true', List.isEmpty_eq_false_iff_exists_mem]
  constructor
  · rintro ⟨name, field, hfield⟩
    have hsome := h.isSome_field?_graph hid name
    rw [hfield, Option.isSome_some] at hsome
    obtain ⟨child, hchild⟩ := Option.isSome_iff_exists.mp hsome.symm
    exact ⟨(name, child), Keyed.mem_of_lookup hchild⟩
  · rintro ⟨⟨name, child⟩, hmem⟩
    have hsome := h.isSome_field?_graph hid name
    rw [child?, Keyed.lookup_of_mem (h.children_nodup id) hmem, Option.isSome_some] at hsome
    exact ⟨name, Option.isSome_iff_exists.mp hsome⟩

theorem lookup?_graph (h : a.Linked) (name : String) :
    a.graph.lookup? name = (a.lookup? name).map a.keyAt := by
  rw [TypeGraph.lookup?, h.isSome_node?_graph]
  cases hid : a.lookup? name with
  | none => rfl
  | some id =>
      rw [Option.map_some, (h.lookup?_eq_some_iff.mp hid).2]
      rfl

/-- Fields have no children. -/
theorem childrenOf_eq_nil (h : a.Linked) (hid : a.parent? id = some parent) (hne : parent ≠ root) :
    a.childrenOf id = [] := by
  rw [List.eq_nil_iff_forall_not_mem]
  rintro ⟨key, child⟩ hmem
  rcases h.eq_root_or (h.mem_children.mp hmem).1 with hroot | htop
  · exact h.ne_root hid hroot
  · rw [hid] at htop
    exact hne (Option.some.inj htop)

theorem structOf?_graph (h : a.Linked) (m : Member) :
    a.graph.structOf? m = (a.structOf? m).map a.keyAt := by
  unfold TypeGraph.structOf? structOf?
  match m.type?.map TypeExpr.pointee with
  | none | some (.pointer _) | some (.array _) | some (.map _) => rfl
  | some (.named name) =>
      simp only [h.lookup?_graph]
      by_cases hbuiltin : Builtin.isName name = true
      · rw [if_pos hbuiltin, if_pos hbuiltin, Option.map_none]
      · rw [if_neg hbuiltin, if_neg hbuiltin]
        cases hid : a.lookup? name with
        | none => rfl
        | some id =>
            rw [Option.map_some, Option.filter_some, Option.filter_some,
              h.hasFields_graph (h.lookup?_eq_some_iff.mp hid).1]
            cases (a.childrenOf id).isEmpty <;> rfl

theorem structAt?_graph (h : a.Linked) (hid : a.parent? id = some parent) :
    a.graph.structAt? (a.slot id) = (a.structAt? id).map a.keyAt := by
  obtain ⟨c, hc, -⟩ := exists_cell_of_parent? hid
  have hmember := h.member?_graph hc hid
  unfold structAt?
  rw [hc, Option.map_some, Option.bind_some]
  by_cases hroot : parent = root
  · subst hroot
    rw [slot_of_root hid] at hmember ⊢
    rw [TypeGraph.structAt?, h.hasFields_graph hid, hmember, Option.bind_some, h.structOf?_graph]
    split <;> rfl
  · rw [h.childrenOf_eq_nil hid hroot]
    rw [slot_of_ne hid hroot] at hmember ⊢
    rw [TypeGraph.structAt?, hmember, Option.bind_some, h.structOf?_graph]
    rfl

/-- Only nodes are followed into. -/
theorem parent?_of_structAt? (h : a.Linked) (hid : a.parent? id = some parent)
    (howner : a.structAt? id = some owner) : a.parent? owner = some root := by
  unfold structAt? at howner
  split at howner
  · rename_i hchildren
    cases howner
    by_cases hroot : parent = root
    · exact hroot ▸ hid
    · rw [h.childrenOf_eq_nil hid hroot] at hchildren
      cases hchildren
  · obtain ⟨m, -, hstruct⟩ := Option.bind_eq_some_iff.mp howner
    unfold structOf? at hstruct
    split at hstruct
    · split at hstruct
      · cases hstruct
      · obtain ⟨hfound, -⟩ := Option.filter_eq_some_iff.mp hstruct
        exact (h.lookup?_eq_some_iff.mp hfound).1
    · cases hstruct

theorem exists_parent_of_entryAt? (h : a.Linked) (hid : a.entryAt? owner key = some id) :
    ∃ parent, a.parent? id = some parent := by
  unfold entryAt? at hid
  split at hid
  · obtain ⟨hfound, -⟩ := Option.filter_eq_some_iff.mp hid
    exact ⟨root, (h.lookup?_eq_some_iff.mp hfound).1⟩
  · exact ⟨owner, (h.child?_eq_some_iff.mp hid).1⟩

theorem param?_graph (h : a.Linked) (name : String) :
    a.graph.param? name = (a.param? name).map a.keyAt := by
  unfold TypeGraph.param? param?
  cases hid : a.lookup? name with
  | none =>
      rw [h.node?_graph_of_none hid]
      rfl
  | some id =>
      obtain ⟨c, hc, hnode⟩ := h.exists_cell_of_lookup? hid
      simp only [hnode, Option.filter_some, hc, Option.any_some]
      split
      · rw [Option.map_some, (h.lookup?_eq_some_iff.mp hid).2]
      · rfl

theorem slotOf?_graph (h : a.Linked) (howner : owner = root ∨ a.parent? owner = some root)
    (key : String) :
    a.graph.slotOf? (a.ownerKey? owner) key = (a.entryAt? owner key).map a.slot := by
  rw [ownerKey?, entryAt?]
  by_cases hroot : owner = root
  · rw [if_pos hroot, if_pos hroot, TypeGraph.slotOf?, h.param?_graph, Option.map_map]
    cases hid : a.param? key with
    | none => rfl
    | some id =>
        obtain ⟨hfound, -⟩ := Option.filter_eq_some_iff.mp hid
        rw [Option.map_some, Option.map_some, slot_of_root (h.lookup?_eq_some_iff.mp hfound).1]
        rfl
  · have hparent := howner.resolve_left hroot
    rw [if_neg hroot, if_neg hroot, TypeGraph.slotOf?, h.isSome_field?_graph hparent]
    cases hid : a.child? owner key with
    | none => rfl
    | some id =>
        obtain ⟨hid', hname⟩ := h.child?_eq_some_iff.mp hid
        rw [entryKey, if_neg hroot] at hname
        rw [Option.map_some, slot_of_ne hid' hroot, hname]
        rfl

end Linked

/-! ## Sampling a document -/

mutual

theorem graph_sampleValue {path : List Id} {id parent : Id} {a : Arena} (h : a.Linked)
    (hid : a.parent? id = some parent) (hpath : ∀ owner ∈ path, a.parent? owner = some root) :
    (d : Document) → (sampleValue path id a d).graph =
      TypeGraph.sampleValue (path.map a.keyAt) (a.slot id) a.graph d
  | .null => rfl
  | .bool _ => h.graph_setSample hid _
  | .number _ => h.graph_setSample hid _
  | .string _ => h.graph_setSample hid _
  | .array _ => h.graph_setSample hid _
  | .object entries => by
      rw [sampleValue, TypeGraph.sampleValue, h.structAt?_graph hid]
      cases howner : a.structAt? id with
      | none => exact h.graph_setSample hid _
      | some owner =>
          have hroot := h.parent?_of_structAt? hid howner
          have hne : owner ≠ root := h.ne_root hroot
          -- Nodes are followed once, whether they are told apart by positions or by keys.
          have hcontains : (path.map a.keyAt).contains (a.keyAt owner) = path.contains owner := by
            rw [Bool.eq_iff_iff, List.contains_iff_mem, List.contains_iff_mem]
            constructor
            · intro hmem
              obtain ⟨other, hother, hkey⟩ := List.mem_map.mp hmem
              exact h.eq_of_keyAt (hpath other hother) hroot hkey ▸ hother
            · exact fun hmem => List.mem_map_of_mem hmem
          simp only [Option.map_some, hcontains]
          cases path.contains owner with
          | true => exact h.graph_setSample hid _
          | false =>
              have hinside := graph_sampleEntries h (Or.inr hroot)
                (List.forall_mem_cons.mpr ⟨hroot, hpath⟩) entries
              have hsame := Resampled.sampleEntries h (owner :: path) owner entries
              have hid' := hid
              rw [← hsame.parent?_eq] at hid'
              rw [ownerKey?, if_neg hne, List.map_cons] at hinside
              simp only [Bool.false_eq_true, if_false]
              rw [hsame.linked.graph_setSample hid', hsame.slot_eq, hinside]
termination_by structural d => d

theorem graph_sampleEntries {path : List Id} {owner : Id} {a : Arena} (h : a.Linked)
    (howner : owner = root ∨ a.parent? owner = some root)
    (hpath : ∀ owner ∈ path, a.parent? owner = some root) :
    (entries : List (String × Document)) → (sampleEntries path owner a entries).graph =
      TypeGraph.sampleEntries (path.map a.keyAt) (a.ownerKey? owner) a.graph entries
  | [] => rfl
  | (key, value) :: entries => by
      rw [sampleEntries, TypeGraph.sampleEntries, h.slotOf?_graph howner]
      cases hid : a.entryAt? owner key with
      | none => exact graph_sampleEntries h howner hpath entries
      | some id =>
          obtain ⟨parent, hparent⟩ := h.exists_parent_of_entryAt? hid
          have hfirst := graph_sampleValue h hparent hpath value
          have hsame := Resampled.sampleValue h path id value
          have hrest := graph_sampleEntries hsame.linked (hsame.parent?_eq.symm ▸ howner)
            (hsame.parent?_eq.symm ▸ hpath) entries
          rw [hsame.keyAt_eq, ownerKey?, hsame.keyAt_eq, hfirst] at hrest
          exact hrest
termination_by structural entries => entries

end

theorem graph_populate (h : a.Linked) (values : Document) :
    (a.populate values).graph = a.graph.populate values :=
  graph_sampleEntries h (Or.inl rfl) (fun _ hmem => absurd hmem List.not_mem_nil) values.entries

theorem resampled_populate (h : a.Linked) (values : Document) : a.Resampled (a.populate values) :=
  .sampleEntries h [] root values.entries

/-- Any documents, one after the other. -/
theorem graph_foldl_populate (h : a.Linked) (documents : List Document) :
    (documents.foldl populate a).Linked ∧
      (documents.foldl populate a).graph = documents.foldl TypeGraph.populate a.graph := by
  induction documents generalizing a with
  | nil => exact ⟨h, rfl⟩
  | cons values documents ih =>
      obtain ⟨hlinked, hgraph⟩ := ih (resampled_populate h values).linked
      rw [graph_populate h] at hgraph
      exact ⟨hlinked, hgraph⟩

end AnnotatedValues.Arena
