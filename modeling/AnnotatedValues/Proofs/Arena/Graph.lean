import AnnotatedValues.Proofs.Arena.Links
import AnnotatedValues.Proofs.Graph.Lookup

/-!
# The graph of a linked arena

Forgetting positions turns each operation on a linked arena into the one of the
same name on its graph.  What a cell stands for in the graph is its slot, and
cells below the root have different slots.
-/

namespace AnnotatedValues

/-! ## Positions in a list -/

section

variable {α β : Type} {r : α → Option β} {l : List α}

/-- What is read off a list in which one position changes. -/
theorem filterMap_modify {f : α → α} {g : β → β} {i : Nat}
    (hat : ∀ c, l[i]? = some c → r (f c) = (r c).map g)
    (hother : ∀ j c, j ≠ i → l[j]? = some c → (r c).map g = r c) :
    (l.modify i f).filterMap r = (l.filterMap r).map g := by
  rw [List.map_filterMap]
  induction l generalizing i with
  | nil => cases i <;> rfl
  | cons c l ih =>
      cases i with
      | zero =>
          have htail : l.filterMap r = l.filterMap fun c => (r c).map g := by
            refine List.filterMap_congr fun c hc => ?_
            obtain ⟨j, hj⟩ := List.mem_iff_getElem?.mp hc
            exact (hother (j + 1) c (Nat.succ_ne_zero j) hj).symm
          rw [List.modify_zero_cons, List.filterMap_cons, List.filterMap_cons, hat c rfl, htail]
      | succ i =>
          have htail := ih (i := i) (fun c hc => hat c hc)
            fun j c hj hc => hother (j + 1) c (fun h => hj (Nat.succ.inj h)) hc
          rw [List.modify_succ_cons, List.filterMap_cons, List.filterMap_cons, htail,
            hother 0 c (Nat.succ_ne_zero i).symm rfl]

/-- A change that is not read. -/
theorem filterMap_modify_of_eq {f : α → α} {i : Nat} (hat : ∀ c, l[i]? = some c → r (f c) = r c) :
    (l.modify i f).filterMap r = l.filterMap r := by
  rw [filterMap_modify (g := id) (fun c hc => by rw [hat c hc, Option.map_id_fun, id]) fun _ c _ _ => by
    rw [Option.map_id_fun, id], List.map_id]

/-- What is read off each position differs. -/
theorem nodup_filterMap (hr : ∀ (i j : Nat) c d b, l[i]? = some c → l[j]? = some d → r c = some b →
    r d = some b → i = j) : (l.filterMap r).Nodup := by
  refine List.Pairwise.filterMap r (R := fun c d => ∀ b, r c = some b → r d ≠ some b) ?_ ?_
  · intro c d hne b hb b' hb' hsame
    exact hne b hb (hsame ▸ hb')
  · rw [List.pairwise_iff_getElem]
    intro i j hi hj hij b hb hb'
    have hsame := hr i j _ _ b (List.getElem?_eq_getElem hi) (List.getElem?_eq_getElem hj) hb hb'
    exact Nat.ne_of_lt hij hsame

end

namespace TypeGraph

theorem eq_of_parts {g g' : TypeGraph} (hnodes : g.nodes = g'.nodes) (hfields : g.fields = g'.fields)
    (hparams : g.params = g'.params) (hdiagnostics : g.diagnostics = g'.diagnostics) : g = g' := by
  cases g
  cases g'
  exact TypeGraph.mk.injEq .. ▸ ⟨hnodes, hfields, hparams, hdiagnostics⟩

/-- Where keys differ, the first node of a key is all there are. -/
theorem modifyNode_eq_map {f : Node → Node} {key : String} {nodes : List (String × Node)}
    (h : (nodes.map Prod.fst).Nodup) :
    modifyNode f key nodes = nodes.map fun e => if e.1 = key then (e.1, f e.2) else e := by
  rw [modifyNode_eq]
  exact modifyFirst_eq_map (fun e => beq_iff_eq) h

/-- Where slots differ, the first field of a slot is all there are. -/
theorem modifyField_eq_map {f : Field → Field} {owner name : String} {fields : List Field}
    (h : (fields.map fun x => (x.owner, x.name)).Nodup) :
    modifyField f owner name fields =
      fields.map fun x => if (x.owner, x.name) = (owner, name) then f x else x := by
  rw [modifyField_eq]
  exact modifyFirst_eq_map (fun x => by simp) h

end TypeGraph

namespace Arena

variable {a : Arena} {id parent other : Id} {key name owner : String} {c : Cell}

/-! ## Cells and what they stand for -/

theorem node?_eq_some_iff {entry : String × Node} :
    node? c = some entry ↔ c.parent? = some root ∧ entry = (keyOf c.node.name, c.node) := by
  rw [node?, Option.ite_none_right_eq_some, Option.some.injEq, eq_comm (a := entry)]

theorem field?_eq_some_iff {keyAt : Id → String} {field : Field} :
    field? keyAt c = some field ↔ ∃ parent, c.parent? = some parent ∧ parent ≠ root ∧
      field = ⟨keyAt parent, c.node.name, c.node.member⟩ := by
  rw [field?]
  cases c.parent? with
  | none => simp
  | some parent =>
      by_cases hroot : parent = root
      · simp [hroot]
      · simp [hroot, eq_comm (a := field)]

/-- The slot that a cell below the root stands for. -/
def slot (a : Arena) (id : Id) : Slot :=
  match a.parent? id with
  | some parent => if parent = root then .node (a.keyAt id) else .field (a.keyAt parent) (a.nameOf id)
  | none => .node (a.keyAt id)

theorem slot_of_root (hid : a.parent? id = some root) : a.slot id = .node (a.keyAt id) := by
  rw [slot, hid]
  exact if_pos rfl

theorem slot_of_ne (hid : a.parent? id = some parent) (hparent : parent ≠ root) :
    a.slot id = .field (a.keyAt parent) (a.nameOf id) := by
  rw [slot, hid]
  exact if_neg hparent

theorem mem_nodes_graph {entry : String × Node} : entry ∈ a.graph.nodes ↔
    ∃ (id : Id) (c : Cell), a.cells[id]? = some c ∧ c.parent? = some root ∧
      entry = (keyOf c.node.name, c.node) := by
  rw [graph, List.mem_filterMap]
  constructor
  · rintro ⟨c, hc, hnode⟩
    obtain ⟨id, hid⟩ := List.mem_iff_getElem?.mp hc
    exact ⟨id, c, hid, node?_eq_some_iff.mp hnode⟩
  · rintro ⟨id, c, hid, hnode⟩
    exact ⟨c, List.mem_of_getElem? hid, node?_eq_some_iff.mpr hnode⟩

theorem mem_fields_graph {field : Field} : field ∈ a.graph.fields ↔
    ∃ (id : Id) (c : Cell) (parent : Id), a.cells[id]? = some c ∧ c.parent? = some parent ∧
      parent ≠ root ∧ field = ⟨a.keyAt parent, c.node.name, c.node.member⟩ := by
  rw [graph, List.mem_filterMap]
  constructor
  · rintro ⟨c, hc, hfield⟩
    obtain ⟨id, hid⟩ := List.mem_iff_getElem?.mp hc
    obtain ⟨parent, hparent⟩ := field?_eq_some_iff.mp hfield
    exact ⟨id, c, parent, hid, hparent⟩
  · rintro ⟨id, c, parent, hid, hparent⟩
    exact ⟨c, List.mem_of_getElem? hid, field?_eq_some_iff.mpr ⟨parent, hparent⟩⟩

theorem exists_cell_of_node?_graph {node : Node} (hnode : a.graph.node? key = some node) :
    ∃ (id : Id) (c : Cell), a.cells[id]? = some c ∧ c.parent? = some root ∧ a.keyAt id = key ∧
      c.node = node := by
  obtain ⟨id, c, hc, hparent, hentry⟩ := mem_nodes_graph.mp (TypeGraph.mem_nodes_of_node? hnode)
  obtain ⟨rfl, rfl⟩ := Prod.mk.inj hentry
  exact ⟨id, c, hc, hparent, by rw [keyAt, nameOf_of_getElem? hc], rfl⟩

theorem exists_cell_of_field?_graph {field : Field} (hfield : a.graph.field? owner name = some field) :
    ∃ (id : Id) (c : Cell) (parent : Id), a.cells[id]? = some c ∧ c.parent? = some parent ∧
      parent ≠ root ∧ a.keyAt parent = owner ∧ a.nameOf id = name ∧
        field = ⟨owner, name, c.node.member⟩ := by
  obtain ⟨hmem, rfl, rfl⟩ := TypeGraph.field?_eq_some hfield
  obtain ⟨id, c, parent, hc, hparent, hne, rfl⟩ := mem_fields_graph.mp hmem
  exact ⟨id, c, parent, hc, hparent, hne, rfl, nameOf_of_getElem? hc, rfl⟩

namespace Linked

/-- Fields are told apart by their nodes and names. -/
theorem eq_of_slot (h : a.Linked) (hid : a.parent? id = some parent) (hparent : parent ≠ root)
    {parent' : Id} (hother : a.parent? other = some parent') (hparent' : parent' ≠ root)
    (hkey : a.keyAt parent = a.keyAt parent') (hname : a.nameOf id = a.nameOf other) :
    id = other := by
  have hsame : parent = parent' := h.eq_of_keyAt ((h.eq_root_or hid).resolve_left hparent)
    ((h.eq_root_or hother).resolve_left hparent') hkey
  subst hsame
  have hfound := h.child?_eq_some_iff.mpr ⟨hid, (if_neg hparent).trans hname⟩
  have hfound' := h.child?_eq_some_iff.mpr ⟨hother, if_neg hparent⟩
  exact Option.some.inj (hfound.symm.trans hfound')

theorem nodup_keys_graph (h : a.Linked) : (a.graph.nodes.map Prod.fst).Nodup := by
  rw [graph, List.map_filterMap]
  refine nodup_filterMap fun i j c d key hc hd hkey hkey' => ?_
  obtain ⟨entry, hentry, rfl⟩ := Option.map_eq_some_iff.mp hkey
  obtain ⟨entry', hentry', hsame⟩ := Option.map_eq_some_iff.mp hkey'
  obtain ⟨hparent, rfl⟩ := node?_eq_some_iff.mp hentry
  obtain ⟨hparent', rfl⟩ := node?_eq_some_iff.mp hentry'
  refine h.eq_of_keyAt ((parent?_of_getElem? hc).trans hparent)
    ((parent?_of_getElem? hd).trans hparent') ?_
  rw [keyAt, keyAt, nameOf_of_getElem? hc, nameOf_of_getElem? hd]
  exact hsame.symm

theorem nodup_slots_graph (h : a.Linked) :
    (a.graph.fields.map fun x => (x.owner, x.name)).Nodup := by
  rw [graph, List.map_filterMap]
  refine nodup_filterMap fun i j c d slot hc hd hslot hslot' => ?_
  obtain ⟨field, hfield, rfl⟩ := Option.map_eq_some_iff.mp hslot
  obtain ⟨field', hfield', hsame⟩ := Option.map_eq_some_iff.mp hslot'
  obtain ⟨parent, hparent, hne, rfl⟩ := field?_eq_some_iff.mp hfield
  obtain ⟨parent', hparent', hne', rfl⟩ := field?_eq_some_iff.mp hfield'
  obtain ⟨hkey, hname⟩ := Prod.mk.inj hsame
  refine h.eq_of_slot ((parent?_of_getElem? hc).trans hparent) hne
    ((parent?_of_getElem? hd).trans hparent') hne' hkey.symm ?_
  rw [nameOf_of_getElem? hc, nameOf_of_getElem? hd]
  exact hname.symm

/-! ## Look-ups in the graph -/

theorem node?_graph_of_cell (h : a.Linked) (hc : a.cells[id]? = some c)
    (hparent : c.parent? = some root) : a.graph.node? (a.keyAt id) = some c.node := by
  refine Keyed.lookup_of_mem h.nodup_keys_graph (mem_nodes_graph.mpr ⟨id, c, hc, hparent, ?_⟩)
  rw [keyAt, nameOf_of_getElem? hc]

theorem exists_cell_of_lookup? (h : a.Linked) (hid : a.lookup? name = some id) :
    ∃ c, a.cells[id]? = some c ∧ a.graph.node? (keyOf name) = some c.node := by
  obtain ⟨hroot, hkey⟩ := h.lookup?_eq_some_iff.mp hid
  obtain ⟨c, hc, hparent⟩ := exists_cell_of_parent? hroot
  exact ⟨c, hc, hkey ▸ h.node?_graph_of_cell hc hparent⟩

/-- The graph has a node for a name exactly if the index has its cell. -/
theorem isSome_node?_graph (h : a.Linked) (name : String) :
    (a.graph.node? (keyOf name)).isSome = (a.lookup? name).isSome := by
  rw [Bool.eq_iff_iff, Option.isSome_iff_exists, Option.isSome_iff_exists]
  constructor
  · rintro ⟨node, hnode⟩
    obtain ⟨id, c, hc, hparent, hkey, -⟩ := exists_cell_of_node?_graph hnode
    exact ⟨id, h.lookup?_eq_some_iff.mpr ⟨(parent?_of_getElem? hc).trans hparent, hkey⟩⟩
  · rintro ⟨id, hid⟩
    obtain ⟨c, -, hnode⟩ := h.exists_cell_of_lookup? hid
    exact ⟨c.node, hnode⟩

theorem node?_graph_of_none (h : a.Linked) (hid : a.lookup? name = none) :
    a.graph.node? (keyOf name) = none := by
  have hsome := h.isSome_node?_graph name
  rw [hid, Option.isSome_none] at hsome
  exact Option.isNone_iff_eq_none.mp (Option.isSome_eq_false_iff.mp hsome)

theorem field?_graph_of_cell (h : a.Linked) (hc : a.cells[id]? = some c)
    (hparent : c.parent? = some parent) (hne : parent ≠ root) :
    a.graph.field? (a.keyAt parent) (a.nameOf id) =
      some ⟨a.keyAt parent, a.nameOf id, c.node.member⟩ := by
  have hmem : ⟨a.keyAt parent, a.nameOf id, c.node.member⟩ ∈ a.graph.fields :=
    mem_fields_graph.mpr ⟨id, c, parent, hc, hparent, hne, by rw [nameOf_of_getElem? hc]⟩
  have hsome : (a.graph.field? (a.keyAt parent) (a.nameOf id)).isSome = true := by
    rw [TypeGraph.field?, List.find?_isSome]
    exact ⟨_, hmem, by simp⟩
  obtain ⟨found, hfound⟩ := Option.isSome_iff_exists.mp hsome
  obtain ⟨hfield, howner, hname⟩ := TypeGraph.field?_eq_some hfound
  rw [hfound, List.inj_on_of_nodup_map h.nodup_slots_graph hfield hmem (Prod.ext howner hname)]

/-- The graph has a field of a node exactly if the cell of the node has a child of its name. -/
theorem isSome_field?_graph (h : a.Linked) (hparent : a.parent? parent = some root) (name : String) :
    (a.graph.field? (a.keyAt parent) name).isSome = (a.child? parent name).isSome := by
  have hne : parent ≠ root := h.ne_root hparent
  rw [Bool.eq_iff_iff, Option.isSome_iff_exists, Option.isSome_iff_exists]
  constructor
  · rintro ⟨field, hfield⟩
    obtain ⟨id, c, other, hc, hother, hne', hkey, hname, -⟩ := exists_cell_of_field?_graph hfield
    have hid : a.parent? id = some other := (parent?_of_getElem? hc).trans hother
    have hsame : other = parent :=
      h.eq_of_keyAt ((h.eq_root_or hid).resolve_left hne') hparent hkey
    subst hsame
    exact ⟨id, h.child?_eq_some_iff.mpr ⟨hid, (if_neg hne).trans hname⟩⟩
  · rintro ⟨id, hid⟩
    obtain ⟨hid', hname⟩ := h.child?_eq_some_iff.mp hid
    obtain ⟨c, hc, hc'⟩ := exists_cell_of_parent? hid'
    rw [entryKey, if_neg hne] at hname
    exact ⟨_, hname ▸ h.field?_graph_of_cell hc hc' hne⟩

/-! ## Operations -/

theorem nodes_graph_updateNode (h : a.Linked) (hc : a.cells[id]? = some c)
    (hparent : c.parent? = some root) {f : Node → Node}
    (hkey : keyOf (f c.node).name = keyOf c.node.name) :
    (a.updateNode id f).graph.nodes = TypeGraph.modifyNode f (a.keyAt id) a.graph.nodes := by
  have hat : keyOf c.node.name = a.keyAt id := by rw [keyAt, nameOf_of_getElem? hc]
  rw [TypeGraph.modifyNode_eq_map h.nodup_keys_graph]
  refine filterMap_modify (fun d hd => ?_) fun j d hj hd => ?_
  · cases hc.symm.trans hd
    have hchanged : node? { c with node := f c.node } = some (keyOf (f c.node).name, f c.node) :=
      node?_eq_some_iff.mpr ⟨hparent, rfl⟩
    rw [hchanged, node?_eq_some_iff.mpr ⟨hparent, rfl⟩, Option.map_some, if_pos hat, hkey]
  · cases hentry : node? d with
    | none => rfl
    | some entry =>
        obtain ⟨hroot, rfl⟩ := node?_eq_some_iff.mp hentry
        rw [Option.map_some, if_neg]
        intro hsame
        refine hj (h.eq_of_keyAt ((parent?_of_getElem? hd).trans hroot)
          ((parent?_of_getElem? hc).trans hparent) ?_)
        rw [← hsame, keyAt, nameOf_of_getElem? hd]

/-- A changed node, under the same key. -/
theorem graph_updateNode (h : a.Linked) (hid : a.parent? id = some root) {f : Node → Node}
    (hkey : ∀ c, a.cells[id]? = some c → keyOf (f c.node).name = keyOf c.node.name) :
    (a.updateNode id f).graph = a.graph.updateNode (a.keyAt id) f := by
  obtain ⟨c, hc, hparent⟩ := exists_cell_of_parent? hid
  refine TypeGraph.eq_of_parts (h.nodes_graph_updateNode hc hparent (hkey c hc)) ?_ ?_ rfl
  · change (a.updateNode id f).cells.filterMap (field? (a.updateNode id f).keyAt) = _
    rw [keyAt_updateNode hkey]
    refine filterMap_modify_of_eq fun d hd => ?_
    cases hc.symm.trans hd
    rw [field?, field?, hparent]
    rfl
  · change (a.updateNode id f).params.map (a.updateNode id f).keyAt = _
    rw [keyAt_updateNode hkey]
    rfl

theorem fields_graph_updateMember (h : a.Linked) (hid : a.parent? id = some parent)
    (hroot : parent ≠ root) (f : Member → Member) :
    (a.updateMember id f).graph.fields =
      TypeGraph.modifyField (fun field => { field with member := f field.member }) (a.keyAt parent)
        (a.nameOf id) a.graph.fields := by
  obtain ⟨c, hc, hparent⟩ := exists_cell_of_parent? hid
  have hat := nameOf_of_getElem? hc
  change (a.updateMember id f).cells.filterMap (field? (a.updateMember id f).keyAt) = _
  rw [keyAt_updateMember, TypeGraph.modifyField_eq_map h.nodup_slots_graph]
  refine filterMap_modify (fun d hd => ?_) fun j d hj hd => ?_
  · cases hc.symm.trans hd
    have hslot : (a.keyAt parent, c.node.name) = (a.keyAt parent, a.nameOf id) := by rw [hat]
    have hchanged : ∀ n, field? a.keyAt { c with node := n } =
        some ⟨a.keyAt parent, n.name, n.member⟩ := fun n =>
      field?_eq_some_iff.mpr ⟨parent, hparent, hroot, rfl⟩
    rw [hchanged, hchanged c.node, Option.map_some, if_pos hslot]
  · cases hfield : field? a.keyAt d with
    | none => rfl
    | some field =>
        obtain ⟨other, hother, hne, rfl⟩ := field?_eq_some_iff.mp hfield
        rw [Option.map_some, if_neg]
        intro hsame
        obtain ⟨hkey, hname⟩ := Prod.mk.inj hsame
        refine hj (h.eq_of_slot ((parent?_of_getElem? hd).trans hother) hne hid hroot hkey ?_)
        rw [nameOf_of_getElem? hd]
        exact hname

/-- A changed member of a node or field. -/
theorem graph_updateMember (h : a.Linked) (hid : a.parent? id = some parent) (f : Member → Member) :
    (a.updateMember id f).graph = a.graph.updateMember (a.slot id) f := by
  by_cases hroot : parent = root
  · subst hroot
    rw [slot_of_root hid]
    exact h.graph_updateNode hid fun _ _ => rfl
  · obtain ⟨c, hc, hparent⟩ := exists_cell_of_parent? hid
    have hnot : c.parent? ≠ some root := by
      rw [hparent]
      exact fun hsame => hroot (Option.some.inj hsame)
    rw [slot_of_ne hid hroot]
    refine TypeGraph.eq_of_parts ?_ (h.fields_graph_updateMember hid hroot f) ?_ rfl
    · refine filterMap_modify_of_eq fun d hd => ?_
      cases hc.symm.trans hd
      rw [node?, node?, if_neg hnot, if_neg hnot]
    · change a.params.map (a.updateMember id f).keyAt = _
      rw [keyAt_updateMember]
      rfl

/-- A new child of the root is a node, and one of a node is a field. -/
theorem graph_push (h : a.Linked) (hparent : parent = root ∨ a.parent? parent = some root)
    (key name : String) (index : List (String × Id)) :
    ({ a.push parent key name with index } : Arena).graph =
      { a.graph with
        nodes := a.graph.nodes ++ if parent = root then [(keyOf name, .named name)] else []
        fields := a.graph.fields ++
          if parent = root then [] else [⟨a.keyAt parent, name, .blank⟩] } := by
  have hgrows := grows_push (h.lt_length hparent) key name
  refine TypeGraph.eq_of_parts ?_ ?_ ?_ rfl
  -- No part of the graph reads the children, which is where the new cell is entered.
  · refine Eq.trans (filterMap_modify_of_eq fun _ _ => rfl) (List.filterMap_append.trans ?_)
    refine congrArg (a.graph.nodes ++ ·) ?_
    by_cases hroot : parent = root
    · simp [node?, hroot, Node.named]
    · simp [node?, hroot]
  · refine Eq.trans (filterMap_modify_of_eq fun _ _ => rfl) (List.filterMap_append.trans ?_)
    refine congrArg₂ (· ++ ·) (List.filterMap_congr fun c hc => ?_) ?_
    · obtain ⟨id, hid⟩ := List.mem_iff_getElem?.mp hc
      rw [field?, field?]
      cases hother : c.parent? with
      | none => rfl
      | some other =>
          have htop := h.eq_root_or ((parent?_of_getElem? hid).trans hother)
          by_cases hroot : other = root
          · simp [hroot]
          · have hkey := hgrows.keyAt_eq (htop.resolve_left hroot)
            simp only [hroot, if_false]
            exact congrArg (fun k => some (Field.mk k c.node.name c.node.member)) hkey
    · by_cases hroot : parent = root
      · simp [field?, hroot]
      · have hkey := hgrows.keyAt_eq (hparent.resolve_left hroot)
        have hnew : field? (a.push parent key name).keyAt ⟨.named name, some parent, []⟩ =
            some ⟨a.keyAt parent, name, .blank⟩ :=
          field?_eq_some_iff.mpr ⟨parent, rfl, hroot, by rw [hkey]; rfl⟩
        rw [if_neg hroot]
        exact List.filterMap_cons_some hnew
  · exact List.map_congr_left fun id hid => hgrows.keyAt_eq (h.params_below hid)

theorem graph_ensureNode (h : a.Linked) (name : String) :
    (a.ensureNode name).1.graph = a.graph.ensureNode name := by
  rw [TypeGraph.ensureNode, h.isSome_node?_graph]
  cases hid : a.lookup? name with
  | some id =>
      rw [ensureNode_of_some hid]
      rfl
  | none =>
      rw [ensureNode_of_none hid, h.graph_push (Or.inl rfl), if_pos rfl, if_pos rfl, List.append_nil]
      rfl

theorem graph_ensureField (h : a.Linked) (hparent : a.parent? parent = some root) (name : String) :
    (a.ensureField parent name).1.graph = a.graph.ensureField (a.keyAt parent) name := by
  rw [TypeGraph.ensureField, h.isSome_field?_graph hparent]
  cases hid : a.child? parent name with
  | some id =>
      rw [ensureField_of_some hid]
      rfl
  | none =>
      have hne : parent ≠ root := h.ne_root hparent
      have hpush := h.graph_push (Or.inr hparent) name name a.index
      rw [if_neg hne, if_neg hne, List.append_nil] at hpush
      rw [ensureField_of_none hid]
      exact hpush

theorem graph_ensureParam (h : a.Linked) (hid : a.parent? id = some root) :
    (a.ensureParam id).graph = a.graph.ensureParam (a.keyAt id) := by
  have hmem : (a.graph.params.contains (a.keyAt id)) = a.params.contains id := by
    rw [Bool.eq_iff_iff, List.contains_iff_mem, List.contains_iff_mem]
    constructor
    · intro hkey
      obtain ⟨other, hother, hsame⟩ := List.mem_map.mp hkey
      exact h.eq_of_keyAt (h.params_below hother) hid hsame ▸ hother
    · exact fun hparam => List.mem_map_of_mem hparam
  rw [Arena.ensureParam, TypeGraph.ensureParam, hmem]
  split
  · rfl
  · refine TypeGraph.eq_of_parts rfl rfl ?_ rfl
    exact List.map_append

end Linked

end Arena

end AnnotatedValues
