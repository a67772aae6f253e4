import AnnotatedValues.Proofs.Arena.Graph
import AnnotatedValues.Proofs.Graph.Rows

/-!
# Building an arena

Each row does to the graph of a linked arena what it does to the arena, and
leaves it linked; both fail at the same rows.  An arena of rows is therefore
linked, and its graph is the graph of the rows.
-/

namespace AnnotatedValues.Arena

open Annotation Fallible

variable {a a' : Arena} {id parent : Id} {row : Row} {key name : String}

theorem parent?_ensureParam (a : Arena) (id : Id) : (a.ensureParam id).parent? = a.parent? := by
  unfold ensureParam
  split <;> rfl

theorem keyAt_ensureParam (a : Arena) (id : Id) : (a.ensureParam id).keyAt = a.keyAt := by
  unfold ensureParam
  split <;> rfl

/-- A result of `assign` is the arena with the new member, and a node for the name in its type. -/
theorem assign_eq_ok (ha' : a.assign id row = .ok a') :
    ∃ type, TypeExpr.ofBlock row.typeBlock = .ok type ∧
      a' = if Builtin.isName type.base then a.updateMember id (TypeGraph.rowMember row type)
        else ((a.updateMember id (TypeGraph.rowMember row type)).ensureNode type.base).1 := by
  obtain ⟨type, htype, hassigned⟩ := bind_eq_ok_iff.mp ha'
  exact ⟨type, htype, (pure_eq_ok_iff.mp hassigned).symm⟩

theorem alias?_eq_some_iff {c : Cell} (hc : a.cells[id]? = some c) :
    a.alias? id = some (key, name) ↔ a.keyAt id = key ∧ ∃ type, c.node.member.type? = some type ∧
      Builtin.isName type.base = false ∧ keyOf type.base ≠ key ∧ type.base = name := by
  rw [keyAt, nameOf_of_getElem? hc, alias?, hc]
  simp only [Option.bind_eq_bind, Option.bind_some, Option.bind_eq_some_iff]
  constructor
  · rintro ⟨type, htype, halias⟩
    split at halias
    · cases halias
    · rename_i hplain
      rw [Bool.or_eq_true, not_or, Bool.not_eq_true, beq_iff_eq] at hplain
      cases halias
      exact ⟨rfl, type, htype, hplain.1, hplain.2, rfl⟩
  · rintro ⟨rfl, type, htype, hname, hne, rfl⟩
    exact ⟨type, htype, by simp [hname, hne]⟩

theorem fst_of_alias? {entry : String × String} (h : a.alias? id = some entry) :
    entry.1 = a.keyAt id := by
  cases hc : a.cells[id]? with
  | none =>
      rw [alias?, hc] at h
      cases h
  | some c => exact ((alias?_eq_some_iff hc).mp h).1.symm

namespace Linked

/-! ## Members -/

theorem assign (h : a.Linked) (hid : a.parent? id = some parent) (ha' : a.assign id row = .ok a') :
    a'.Linked ∧ a.Grows a' := by
  obtain ⟨type, -, rfl⟩ := assign_eq_ok ha'
  have hmember : (a.updateMember id (TypeGraph.rowMember row type)).Linked :=
    h.updateMember (Or.inl (h.ne_root hid))
  have hgrows := grows_updateMember a id (TypeGraph.rowMember row type)
  split
  · exact ⟨hmember, hgrows⟩
  · exact ⟨hmember.ensureNode type.base, hgrows.trans (hmember.grows_ensureNode type.base)⟩

theorem graph_assign (h : a.Linked) (hid : a.parent? id = some parent) (row : Row) :
    (a.assign id row).map graph = a.graph.assign (a.slot id) row := by
  unfold Arena.assign TypeGraph.assign
  cases TypeExpr.ofBlock row.typeBlock with
  | error e => rfl
  | ok type =>
      have hmember := h.graph_updateMember hid (TypeGraph.rowMember row type)
      have hlinked : (a.updateMember id (TypeGraph.rowMember row type)).Linked :=
        h.updateMember (Or.inl (h.ne_root hid))
      refine congrArg Except.ok ?_
      split
      · exact hmember
      · rw [hlinked.graph_ensureNode, hmember]

/-! ## Rows that declare -/

/-- A change to a node that is there or new, and leaves its name and whether it is a parameter. -/
theorem graph_updateNode_ensureNode (h : a.Linked) (name : String) (f : Node → Node)
    (hf : ∀ n, (f n).name = n.name) :
    ((a.ensureNode name).1.updateNode (a.ensureNode name).2 f).graph =
      (a.graph.ensureNode name).updateNode (keyOf name) f := by
  obtain ⟨hroot, hkey⟩ := h.node_ensureNode name
  rw [(h.ensureNode name).graph_updateNode hroot fun c _ => by rw [hf], hkey, h.graph_ensureNode]

/-- A node that is there or new becomes a parameter, under a spelling of its key. -/
theorem declareParam (h : a.Linked) {name : String} {b b' : Arena} {id : Id}
    (hb : a.ensureNode name = (b, id))
    (hb' : b' = (b.updateNode id fun node => { node with isParam := true, name }).ensureParam id) :
    b'.Linked ∧ b'.parent? id = some root ∧ b'.slot id = .node (keyOf name) ∧
      b'.graph = a.graph.ensureUntyped name := by
  have hlinked := h.ensureNode name
  have hgraph := h.graph_ensureNode name
  obtain ⟨hroot, hkey⟩ := h.node_ensureNode name
  rw [hb] at hlinked hgraph hroot hkey
  have hsame : ∀ c, b.cells[id]? = some c → keyOf name = keyOf c.node.name := by
    intro c hc
    rw [← hkey, keyAt, nameOf_of_getElem? hc]
  generalize hf : (fun node : Node => { node with isParam := true, name }) = f at hb'
  have hname : ∀ c, b.cells[id]? = some c → keyOf (f c.node).name = keyOf c.node.name :=
    hf ▸ hsame
  have hupdated := hlinked.updateNode hname (Or.inl hroot) (Or.inl (hlinked.ne_root hroot))
  have hroot' : (b.updateNode id f).parent? id = some root := by
    rw [parent?_updateNode]
    exact hroot
  have hroot'' : b'.parent? id = some root := by
    rw [hb', parent?_ensureParam]
    exact hroot'
  refine ⟨hb' ▸ hupdated.ensureParam hroot', hroot'', ?_, ?_⟩
  · rw [slot_of_root hroot'', hb', keyAt_ensureParam, keyAt_updateNode hname, hkey]
  · rw [hb', hupdated.graph_ensureParam hroot', keyAt_updateNode hname,
      hlinked.graph_updateNode hroot hname, hkey, hgraph, ← hf]
    rfl

theorem declare (h : a.Linked) (ha' : a.declare row = .ok a') : a'.Linked := by
  unfold Arena.declare at ha'
  split at ha'
  · exact Except.ok.inj ha' ▸ h
  · rename_i name _ _
    split at ha'
    · obtain ⟨hlinked, hroot, -⟩ := @declareParam a h name _ _ _ rfl rfl
      exact (hlinked.assign hroot ha').1
    · cases ha'
      exact (h.ensureNode name).updateNode (fun _ _ => rfl) (Or.inr fun _ => ⟨rfl, rfl⟩)
        (Or.inr fun _ => rfl)
    · cases ha'
      exact (h.ensureNode name).updateNode (fun _ _ => rfl) (Or.inr fun _ => ⟨rfl, rfl⟩)
        (Or.inr fun _ => rfl)
    · exact Except.ok.inj ha' ▸ h

theorem graph_declare (h : a.Linked) (row : Row) :
    (a.declare row).map graph = a.graph.declare row := by
  unfold Arena.declare TypeGraph.declare
  cases row.path with
  | nil => rfl
  | cons name rest =>
      cases row.kind with
      | param =>
          obtain ⟨hlinked, hroot, hslot, hgraph⟩ := @declareParam a h name _ _ _ rfl rfl
          have hassign := hlinked.graph_assign hroot row
          rw [hslot, hgraph] at hassign
          exact hassign
      | typedef =>
          exact congrArg Except.ok (h.graph_updateNode_ensureNode name
            (fun node => { node with isTypedef := true, doc := row.description }) fun _ => rfl)
      | enum =>
          exact congrArg Except.ok (h.graph_updateNode_ensureNode name
            (fun node => { node with
              doc := row.description, enum? := some ⟨row.typeBlock, row.choices⟩ }) fun _ => rfl)
      | field => rfl

/-! ## Parameters -/

section

variable (h : a.Linked) (hg : a.graph.WellFormed)

include h hg

/-- The parameters are the cells that are marked as such. -/
theorem mem_params_iff :
    id ∈ a.params ↔ ∃ c, a.cells[id]? = some c ∧ c.node.isParam = true := by
  constructor
  · intro hid
    obtain ⟨c, hc, hroot⟩ := exists_cell_of_parent? (h.params_below hid)
    obtain ⟨node, hnode, hparam⟩ := hg.mem_params.mp (List.mem_map_of_mem hid)
    rw [h.node?_graph_of_cell hc hroot] at hnode
    exact ⟨c, hc, Option.some.inj hnode ▸ hparam⟩
  · rintro ⟨c, hc, hparam⟩
    have hroot := h.marked_below hc hparam
    have hmem := hg.mem_params.mpr ⟨c.node, h.node?_graph_of_cell hc hroot, hparam⟩
    obtain ⟨other, hother, hkey⟩ := List.mem_map.mp hmem
    exact h.eq_of_keyAt (h.params_below hother) ((parent?_of_getElem? hc).trans hroot) hkey ▸ hother

/-- A parameter stands for the type that it stands for in the graph. -/
theorem lookup_aliases (key : String) : a.aliases.lookup key = a.graph.alias? key := by
  have hkeys : ((a.params.filterMap a.alias?).map Prod.fst).Nodup := by
    rw [List.map_filterMap]
    refine (List.pairwise_map.mp hg.params_nodup).filterMap _ ?_
    intro id other hne k hk k' hk' hsame
    obtain ⟨entry, halias, rfl⟩ := Option.map_eq_some_iff.mp hk
    obtain ⟨entry', halias', rfl⟩ := Option.map_eq_some_iff.mp hk'
    exact hne ((fst_of_alias? halias).symm.trans (hsame.trans (fst_of_alias? halias')))
  refine Option.ext fun name => ?_
  rw [aliases, lookup_foldl_put, TypeGraph.alias?_eq_some_iff]
  constructor
  · intro hfound
    obtain ⟨id, hid, halias⟩ := List.mem_filterMap.mp (List.mem_reverse.mp (Keyed.mem_of_lookup hfound))
    obtain ⟨c, hc, hparam⟩ := (h.mem_params_iff hg).mp hid
    obtain ⟨rfl, type, htype⟩ := (alias?_eq_some_iff hc).mp halias
    exact ⟨c.node, type, h.node?_graph_of_cell hc (h.marked_below hc hparam), hparam, htype⟩
  · rintro ⟨node, type, hnode, hparam, htype⟩
    obtain ⟨id, c, hc, -, hkey, rfl⟩ := exists_cell_of_node?_graph hnode
    have hid := (h.mem_params_iff hg).mpr ⟨c, hc, hparam⟩
    refine Keyed.lookup_of_mem ?_ (List.mem_reverse.mpr (List.mem_filterMap.mpr ⟨id, hid, ?_⟩))
    · rw [List.map_reverse]
      exact List.nodup_reverse.mpr hkeys
    · exact (alias?_eq_some_iff hc).mpr ⟨hkey, type, htype⟩

end

/-! ## Rows for fields -/

theorem any_isDeclared (h : a.Linked) (name : String) :
    (a.lookup? name).any a.isDeclared = a.graph.isDeclared (keyOf name) := by
  rw [TypeGraph.isDeclared_eq]
  cases hid : a.lookup? name with
  | none =>
      rw [h.node?_graph_of_none hid]
      rfl
  | some id =>
      obtain ⟨c, hc, hnode⟩ := h.exists_cell_of_lookup? hid
      rw [hnode, Option.any_some, Option.any_some, isDeclared, hc]
      rfl

variable {aliases : List (String × String)} {declared : TypeGraph}

theorem fieldParent_eq (h : a.Linked) (haliases : ∀ key, aliases.lookup key = declared.alias? key)
    (name : String) : a.fieldParent aliases name = TypeGraph.fieldParent declared a.graph name := by
  rw [Arena.fieldParent, h.any_isDeclared, haliases]
  rfl

/-- A field that is there or new, of a node that is there or new. -/
theorem placeField (h : a.Linked) {parent : String} {b b' : Arena} {owner id : Id}
    (hb : a.ensureNode parent = (b, owner)) (hb' : b.ensureField owner name = (b', id)) :
    b'.Linked ∧ a.Grows b' ∧ b'.parent? owner = some root ∧ b'.keyAt owner = keyOf parent ∧
      b'.parent? id = some owner ∧ b'.slot id = .field (keyOf parent) name ∧
        b'.graph = (a.graph.ensureNode parent).ensureField (keyOf parent) name := by
  have hlinked := h.ensureNode parent
  have hgraph := h.graph_ensureNode parent
  have hgrows := h.grows_ensureNode parent
  obtain ⟨hroot, hkey⟩ := h.node_ensureNode parent
  rw [hb] at hlinked hgraph hgrows hroot hkey
  have hlinked' := hlinked.ensureField hroot name
  have hgraph' := hlinked.graph_ensureField hroot name
  have hgrows' := grows_ensureField hroot name
  obtain ⟨hparent, hname⟩ := hlinked.field_ensureField hroot name
  rw [hb'] at hlinked' hgraph' hgrows' hparent hname
  have hkey' := (hgrows'.keyAt_eq hroot).trans hkey
  refine ⟨hlinked', hgrows.trans hgrows', hgrows'.parent?_eq hroot, hkey', hparent, ?_, ?_⟩
  · rw [slot_of_ne hparent (hlinked.ne_root hroot), hkey', hname]
  · rw [hgraph', hkey, hgraph]

end Linked

/-- The placements of fields with the keys of their nodes. -/
def placements (a : Arena) (placed : List (Row × Id)) : List TypeGraph.Placement :=
  placed.map fun p => (p.1, a.keyAt p.2)

/-- A linked arena, and nodes of it under which fields were placed. -/
structure Placing (state : Arena × List (Row × Id)) : Prop where
  linked : state.1.Linked
  below : ∀ p ∈ state.2, state.1.parent? p.2 = some root

theorem Grows.placements_eq {placed : List (Row × Id)} (h : a.Grows a')
    (hplaced : ∀ p ∈ placed, a.parent? p.2 = some root) :
    a'.placements placed = a.placements placed :=
  List.map_congr_left fun p hp => by rw [h.keyAt_eq (hplaced p hp)]

/-! ## Placing fields -/

section

variable {aliases : List (String × String)} {placed : List (Row × Id)} {parent : String}
  {b b' : Arena} {owner : Id}

theorem place_of_fieldPath? (h : row.fieldPath? = some (parent, name))
    (hb : a.ensureNode (a.fieldParent aliases parent) = (b, owner))
    (hb' : b.ensureField owner name = (b', id)) :
    place aliases (a, placed) row =
      b'.assign id row >>= fun a' => pure (a', placed ++ [(row, owner)]) := by
  obtain ⟨hkind, hpath⟩ := Row.fieldPath?_eq_some_iff.mp h
  rw [place, hkind, hpath]
  simp only [hb, hb']

theorem place_of_fieldPath?_eq_none (h : row.fieldPath? = none) (state : Arena × List (Row × Id)) :
    place aliases state row = .ok state := by
  unfold place
  split
  · rename_i hkind hpath
    rw [Row.fieldPath?_eq_some_iff.mpr ⟨hkind, hpath⟩] at h
    cases h
  · rfl

end

namespace Placing

variable {aliases : List (String × String)} {declared : TypeGraph}
  {state state' : Arena × List (Row × Id)}

theorem place (h : Placing state) (hstate' : place aliases state row = .ok state') :
    Placing state' := by
  obtain ⟨a, placed⟩ := state
  cases hpath : row.fieldPath? with
  | none =>
      rw [place_of_fieldPath?_eq_none hpath] at hstate'
      exact Except.ok.inj hstate' ▸ h
  | some path =>
      obtain ⟨parent, name⟩ := path
      rcases hb : a.ensureNode (a.fieldParent aliases parent) with ⟨b, owner⟩
      rcases hb' : b.ensureField owner name with ⟨b', id⟩
      rw [place_of_fieldPath? hpath hb hb'] at hstate'
      obtain ⟨a', hassigned, hplaced⟩ := bind_eq_ok_iff.mp hstate'
      obtain ⟨hlinked, hgrows, howner, -, hparent, -⟩ := h.linked.placeField hb hb'
      obtain ⟨hlinked', hgrows'⟩ := hlinked.assign hparent hassigned
      rw [pure_eq_ok_iff] at hplaced
      subst hplaced
      refine ⟨hlinked', fun p hp => ?_⟩
      rcases List.mem_append.mp hp with hold | hnew
      · exact (hgrows.trans hgrows').parent?_eq (h.below p hold)
      · rw [List.mem_singleton.mp hnew]
        exact hgrows'.parent?_eq howner

theorem graph_place (h : Placing state) (haliases : ∀ key, aliases.lookup key = declared.alias? key)
    (row : Row) :
    (Arena.place aliases state row).map (fun s => (s.1.graph, s.1.placements s.2)) =
      TypeGraph.place declared (state.1.graph, state.1.placements state.2) row := by
  obtain ⟨a, placed⟩ := state
  cases hpath : row.fieldPath? with
  | none =>
      rw [place_of_fieldPath?_eq_none hpath, TypeGraph.place_of_fieldPath?_eq_none hpath]
      rfl
  | some path =>
      obtain ⟨parent, name⟩ := path
      rcases hb : a.ensureNode (a.fieldParent aliases parent) with ⟨b, owner⟩
      rcases hb' : b.ensureField owner name with ⟨b', id⟩
      obtain ⟨hlinked, hgrows, howner, hkey, hparent, hslot, hgraph⟩ := h.linked.placeField hb hb'
      have hassign := hlinked.graph_assign hparent row
      rw [hslot, hgraph, h.linked.fieldParent_eq haliases] at hassign
      obtain ⟨hkind, hrow⟩ := Row.fieldPath?_eq_some_iff.mp hpath
      rw [place_of_fieldPath? hpath hb hb', TypeGraph.place, hkind, hrow]
      simp only
      rw [← hassign]
      refine map_bind_eq fun a' ha' => congrArg Except.ok (Prod.ext rfl ?_)
      obtain ⟨-, hgrows'⟩ := hlinked.assign hparent ha'
      have hplaced := (hgrows.trans hgrows').placements_eq h.below
      have howner' := (hgrows'.keyAt_eq howner).trans hkey
      rw [h.linked.fieldParent_eq haliases] at howner'
      refine List.map_append.trans (congrArg₂ (· ++ ·) hplaced ?_)
      rw [List.map_cons, List.map_nil, howner']

end Placing

/-! ## Fields that nothing refers to -/

/-- All cells but the root. -/
theorem mem_cells_tail {c : Cell} : c ∈ a.cells.tail ↔ ∃ id ≠ root, a.cells[id]? = some c := by
  rw [List.mem_iff_getElem?]
  constructor
  · rintro ⟨i, hi⟩
    rw [List.getElem?_tail] at hi
    exact ⟨i + 1, Nat.succ_ne_zero i, hi⟩
  · rintro ⟨id, hid, hc⟩
    obtain ⟨i, rfl⟩ := Nat.exists_eq_succ_of_ne_zero hid
    exact ⟨i, by rw [List.getElem?_tail]; exact hc⟩

namespace Linked

theorem nameOf_graph (h : a.Linked) (hid : a.parent? id = some root) :
    a.graph.nameOf (a.keyAt id) = a.nameOf id := by
  obtain ⟨c, hc, hroot⟩ := exists_cell_of_parent? hid
  rw [TypeGraph.nameOf, h.node?_graph_of_cell hc hroot, nameOf_of_getElem? hc]
  rfl

theorem mem_members_graph (h : a.Linked) {m : Member} :
    m ∈ a.graph.members ↔ ∃ c ∈ a.cells.tail, c.node.member = m := by
  rw [TypeGraph.members, List.mem_append, List.mem_map, List.mem_map]
  constructor
  · rintro (⟨entry, hentry, rfl⟩ | ⟨field, hfield, rfl⟩)
    · obtain ⟨id, c, hc, hroot, rfl⟩ := mem_nodes_graph.mp hentry
      have hne : id ≠ root := h.ne_root ((parent?_of_getElem? hc).trans hroot)
      exact ⟨c, mem_cells_tail.mpr ⟨id, hne, hc⟩, rfl⟩
    · obtain ⟨id, c, parent, hc, hparent, -, rfl⟩ := mem_fields_graph.mp hfield
      have hne : id ≠ root := h.ne_root ((parent?_of_getElem? hc).trans hparent)
      exact ⟨c, mem_cells_tail.mpr ⟨id, hne, hc⟩, rfl⟩
  · rintro ⟨c, hmem, rfl⟩
    obtain ⟨id, hid, hc⟩ := mem_cells_tail.mp hmem
    have hparent := h.near_root (List.getElem?_eq_some_iff.mp hc).1 hid
    rw [parent?_of_getElem? hc] at hparent
    rcases hparent with hroot | ⟨parent, hparent, hroot⟩
    · exact Or.inl ⟨_, mem_nodes_graph.mpr ⟨id, c, hc, hroot, rfl⟩, rfl⟩
    · exact Or.inr
        ⟨_, mem_fields_graph.mpr ⟨id, c, parent, hc, hparent, h.ne_root hroot, rfl⟩, rfl⟩

theorem mem_mentioned_iff (h : a.Linked) : key ∈ a.mentioned ↔ key ∈ a.graph.mentioned := by
  rw [mentioned, TypeGraph.mentioned, List.mem_filterMap, List.mem_filterMap]
  constructor
  · rintro ⟨c, hc, hkey⟩
    exact ⟨c.node.member, h.mem_members_graph.mpr ⟨c, hc, rfl⟩, hkey⟩
  · rintro ⟨m, hm, hkey⟩
    obtain ⟨c, hc, rfl⟩ := h.mem_members_graph.mp hm
    exact ⟨c, hc, hkey⟩

theorem isReferenced_eq (h : a.Linked) (hid : a.parent? id = some root) :
    a.isReferenced id = a.graph.isReferenced (a.keyAt id) := by
  obtain ⟨c, hc, hroot⟩ := exists_cell_of_parent? hid
  have hmentioned : a.mentioned.contains (keyOf c.node.name) =
      a.graph.mentioned.contains (keyOf c.node.name) := by
    rw [Bool.eq_iff_iff, List.contains_iff_mem, List.contains_iff_mem, h.mem_mentioned_iff]
  rw [isReferenced, hc, Option.any_some, TypeGraph.isReferenced, h.node?_graph_of_cell hc hroot,
    hmentioned]

theorem unreferencedFields_eq (h : a.Linked) {placed : List (Row × Id)}
    (hplaced : ∀ p ∈ placed, a.parent? p.2 = some root) :
    a.unreferencedFields placed = a.graph.unreferencedFields (a.placements placed) := by
  rw [unreferencedFields, TypeGraph.unreferencedFields, placements, List.filter_map, List.map_map]
  have hfilter : placed.filter (fun p => !a.isReferenced p.2) =
      placed.filter ((fun p => !a.graph.isReferenced p.2) ∘ fun p => (p.1, a.keyAt p.2)) :=
    List.filter_congr fun p hp => congrArg (!·) (h.isReferenced_eq (hplaced p hp))
  rw [hfilter]
  refine List.map_congr_left fun p hp => ?_
  have hname := h.nameOf_graph (hplaced p (List.mem_of_mem_filter hp))
  rw [Function.comp_apply, hname]

end Linked

/-! ## All rows -/

theorem linked_declared {rows : List Row} {declared : Arena}
    (h : rows.foldlM declare .empty = .ok declared) : declared.Linked :=
  foldlM_induction (motive := Linked) (fun h hstep => h.declare hstep) .empty h

/-- The declarations of an arena, read as a graph. -/
theorem graph_declared (rows : List Row) :
    (rows.foldlM declare .empty).map graph = rows.foldlM TypeGraph.declare .empty :=
  map_foldlM graph (motive := Linked) (fun row h => h.graph_declare row)
    (fun h hstep => h.declare hstep) .empty

theorem linked_build {rows : List Row} (ha : build rows = .ok a) : a.Linked := by
  obtain ⟨declared, hdeclared, hrest⟩ := bind_eq_ok_iff.mp ha
  obtain ⟨state, hplaced, hdiagnosed⟩ := bind_eq_ok_iff.mp hrest
  have hstart : Placing (declared, []) := ⟨linked_declared hdeclared, by simp⟩
  have hstate : Placing state :=
    foldlM_induction (motive := Placing) (fun h hstep => h.place hstep) hstart hplaced
  rw [pure_eq_ok_iff] at hdiagnosed
  subst hdiagnosed
  exact { hstate.linked with }

/-- Building an arena and forgetting its positions is building the graph. -/
theorem graph_build (rows : List Row) : (build rows).map graph = TypeGraph.build rows := by
  rw [build, TypeGraph.build, ← graph_declared]
  refine map_bind_eq fun declared hdeclared => ?_
  have hlinked := linked_declared hdeclared
  have hstart : Placing (declared, []) := ⟨hlinked, by simp⟩
  have hgraph : rows.foldlM TypeGraph.declare .empty = .ok declared.graph := by
    rw [← graph_declared, hdeclared]
    rfl
  have hwell : declared.graph.WellFormed :=
    foldlM_induction (motive := TypeGraph.WellFormed) (fun h hstep => h.declare hstep) .empty hgraph
  -- Both read the aliases off the declarations, and the graph sees the cells of fields by their keys.
  have hplaced : (rows.foldlM (place declared.aliases) (declared, [])).map
      (fun s => (s.1.graph, s.1.placements s.2)) =
        rows.foldlM (TypeGraph.place declared.graph) (declared.graph, []) :=
    map_foldlM (fun s : Arena × List (Row × Id) => (s.1.graph, s.1.placements s.2))
      (motive := Placing) (fun row h => h.graph_place (hlinked.lookup_aliases hwell) row)
      (fun h hstep => h.place hstep) hstart
  simp only
  rw [← hplaced]
  refine map_bind_eq fun state hstate => congrArg Except.ok ?_
  have hlast : Placing state :=
    foldlM_induction (motive := Placing) (fun h hstep => h.place hstep) hstart hstate
  exact TypeGraph.eq_of_parts rfl rfl rfl (hlast.linked.unreferencedFields_eq hlast.below)

end AnnotatedValues.Arena
