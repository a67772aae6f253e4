import AnnotatedValues.Proofs.Arena.Build
import AnnotatedValues.Proofs.Arena.Samples
import AnnotatedValues.Proofs.Resolved.Undefined

/-!
# The layout of an arena

An arena of rows, with the samples of any documents, is a tree of nodes and
fields whose links agree.  Its parameters are the cells that are marked as such,
parameters and fields have types, and the names in these types have nodes.  The
links are the business of the arena alone; marks and types are read off its
graph.
-/

namespace AnnotatedValues.Arena

open Annotation Fallible StateTransition

variable {a : Arena} {id parent : Id} {c : Cell}

/-- The layout of an arena. -/
structure LaidOut (a : Arena) : Prop where
  root_top : root < a.cells.length ∧ a.parent? root = none
  /-- The index has what the root has: an entry for each node, under the key of its name. -/
  index_eq : a.index = a.childrenOf root
  mem_index : ∀ {key id}, (key, id) ∈ a.index ↔ a.parent? id = some root ∧ a.keyAt id = key
  /-- A field is a child of its node, under its exact name. -/
  mem_children : ∀ {parent name id}, parent ≠ root →
    ((name, id) ∈ a.childrenOf parent ↔ a.parent? id = some parent ∧ a.nameOf id = name)
  children_nodup : ∀ parent, ((a.childrenOf parent).map Prod.fst).Nodup
  parent_lt : ∀ {id parent}, a.parent? id = some parent → parent < id
  /-- Each cell but the root is a node or a field of a node, and the walk to the root ends. -/
  near_root : ∀ {id : Id}, id < a.cells.length → id ≠ root →
    a.parent? id = some root ∧ a.names id = Part.some [a.nameOf id] ∨
      ∃ parent, a.parent? id = some parent ∧ a.parent? parent = some root ∧
        a.names id = Part.some [a.nameOf parent, a.nameOf id]
  /-- The path of a cell is the one of its slot in the graph. -/
  path_eq : ∀ {id parent}, a.parent? id = some parent →
    a.path id = Part.some (a.graph.path (a.slot id))
  params_nodup : a.params.Nodup
  mem_params : ∀ {id : Id}, id ∈ a.params ↔ ∃ c, a.cells[id]? = some c ∧ c.node.isParam = true
  param_typed : ∀ {id : Id} {c : Cell}, a.cells[id]? = some c → c.node.isParam = true →
    c.node.member.type?.isSome = true
  field_typed : ∀ {id parent : Id} {c : Cell}, a.cells[id]? = some c → c.parent? = some parent →
    parent ≠ root → c.node.member.type?.isSome = true
  /-- The name in a type has a node, unless it is built in. -/
  base_known : ∀ {id : Id} {c : Cell} {type}, a.cells[id]? = some c →
    c.node.member.type? = some type → Builtin.isName type.base = false →
      ∃ target, (keyOf type.base, target) ∈ a.index

/-! ## Paths -/

/-- A walk that reaches the root ends with the names it has passed. -/
theorem names_of_reaches {names : List String}
    (hreaches : Reaches a.climb? (some id, []) (some root, names)) :
    a.names id = Part.some names := by
  have hend : a.climb? (some root, names) = none := by rw [climb?, if_pos rfl]
  rw [Arena.names, Part.eq_some_iff.mpr (mem_eval.mpr ⟨hreaches, hend⟩), Part.map_some]

namespace Linked

theorem reaches_parent (h : a.Linked) (hid : a.parent? id = some parent) (names : List String) :
    Reaches a.climb? (some id, names) (some parent, a.nameOf id :: names) := by
  obtain ⟨c, hc, hparent⟩ := exists_cell_of_parent? hid
  have hne : id ≠ root := h.ne_root hid
  refine Relation.ReflTransGen.single (Option.mem_def.mpr ?_)
  rw [climb?, if_neg hne, nameOf_of_getElem? hc, hc]
  simp only [hparent]

theorem names_node (h : a.Linked) (hid : a.parent? id = some root) :
    a.names id = Part.some [a.nameOf id] :=
  names_of_reaches (h.reaches_parent hid [])

theorem names_field (h : a.Linked) (hid : a.parent? id = some parent)
    (hparent : a.parent? parent = some root) :
    a.names id = Part.some [a.nameOf parent, a.nameOf id] :=
  names_of_reaches ((h.reaches_parent hid []).trans (h.reaches_parent hparent _))

theorem path_graph (h : a.Linked) (hid : a.parent? id = some parent) :
    a.path id = Part.some (a.graph.path (a.slot id)) := by
  by_cases hroot : parent = root
  · subst hroot
    rw [path, h.names_node hid, Part.map_some, slot_of_root hid, TypeGraph.path, h.nameOf_graph hid]
    rfl
  · have hparent := (h.eq_root_or hid).resolve_left hroot
    rw [path, h.names_field hid hparent, Part.map_some, slot_of_ne hid hroot, TypeGraph.path,
      h.nameOf_graph hparent]
    rfl

/-! ## Types -/

/-- The types in an arena are those of its graph, for the root has none. -/
theorem mem_memberTypes_graph (h : a.Linked) {type : TypeExpr} (hc : a.cells[id]? = some c)
    (htype : c.node.member.type? = some type) : type ∈ a.graph.memberTypes := by
  have hne : id ≠ root := by
    rintro rfl
    rw [h.root_untyped hc] at htype
    cases htype
  refine List.mem_filterMap.mpr ⟨c.node.member, h.mem_members_graph.mpr ⟨c, ?_, rfl⟩, htype⟩
  exact mem_cells_tail.mpr ⟨id, hne, hc⟩

section

variable (h : a.Linked) (hg : a.graph.Built)

include h hg

theorem isSome_type?_of_isParam (hc : a.cells[id]? = some c) (hparam : c.node.isParam = true) :
    c.node.member.type?.isSome = true := by
  have hnode := h.node?_graph_of_cell hc (h.marked_below hc hparam)
  rw [hg.wellFormed.node_typed hnode, hparam]

theorem isSome_type?_of_field (hc : a.cells[id]? = some c) (hparent : c.parent? = some parent)
    (hne : parent ≠ root) : c.node.member.type?.isSome = true :=
  hg.wellFormed.field_typed (h.field?_graph_of_cell hc hparent hne)

theorem laidOut : a.LaidOut where
  root_top := ⟨h.root_known, h.root_top⟩
  index_eq := h.index_eq
  mem_index := by
    rw [h.index_eq]
    exact h.mem_children
  mem_children := by
    intro parent name id hne
    rw [h.mem_children, entryKey, if_neg hne]
  children_nodup := h.children_nodup
  parent_lt := h.parent_lt
  near_root := by
    intro id hid hne
    rcases h.near_root hid hne with hroot | ⟨parent, hparent, hroot⟩
    · exact Or.inl ⟨hroot, h.names_node hroot⟩
    · exact Or.inr ⟨parent, hparent, hroot, h.names_field hparent hroot⟩
  path_eq := h.path_graph
  params_nodup := hg.wellFormed.params_nodup.of_map _
  mem_params := h.mem_params_iff hg.wellFormed
  param_typed := h.isSome_type?_of_isParam hg
  field_typed := h.isSome_type?_of_field hg
  base_known := by
    intro id c type hc htype hbase
    have hnode := hg.isSome_node?_base (h.mem_memberTypes_graph hc htype) hbase
    rw [h.isSome_node?_graph] at hnode
    obtain ⟨target, htarget⟩ := Option.isSome_iff_exists.mp hnode
    exact ⟨target, Keyed.mem_of_lookup htarget⟩

end

end Linked

/-! ## Rows and documents -/

/-- An arena is built from the rows that a graph is built from, and forgetting its positions gives
this graph.  With the samples of any documents it is laid out, and its graph has these samples. -/
theorem build_laidOut (rows : List Row) :
    (build rows).map graph = TypeGraph.build rows ∧
      ∀ a, build rows = .ok a → ∀ documents : List Document,
        (documents.foldl populate a).LaidOut ∧
          (documents.foldl populate a).graph = documents.foldl TypeGraph.populate a.graph := by
  refine ⟨graph_build rows, fun a ha documents => ?_⟩
  have hg : TypeGraph.build rows = .ok a.graph := by
    rw [← graph_build, ha]
    rfl
  obtain ⟨hlinked, hgraph⟩ := graph_foldl_populate (linked_build ha) documents
  have hbuilt : (documents.foldl TypeGraph.populate a.graph).Built :=
    List.foldlRecOn documents TypeGraph.populate (.rows hg) fun g hg values _ => hg.populate values
  exact ⟨hlinked.laidOut (hgraph ▸ hbuilt), hgraph⟩

/-- A declared type that becomes a parameter in another spelling, and a field of a parameter that
belongs to the type it mentions. -/
def respelledRows : List Row :=
  [⟨.typedef, ["Backup"], "struct", [], "", "", false, 1⟩,
    ⟨.param, ["backup"], "Backup", [], "", "", false, 2⟩,
    ⟨.param, ["db"], "map[string]*Store", [], "", "", false, 3⟩,
    ⟨.field, ["Backup", "enabled"], "bool", [], "", "", false, 4⟩,
    ⟨.field, ["db", "host"], "string", [], "", "", false, 5⟩]

def enabledBackup : Document := .object [("backup", .object [("enabled", .bool true)])]

theorem laidOut_respelledRows :
    ∃ a, build respelledRows = .ok a ∧ (a.populate enabledBackup).LaidOut ∧
      a.index = [("backup", 1), ("db", 2), ("store", 3)] ∧ a.params = [1, 2] ∧
      a.childrenOf 3 = [("host", 5)] ∧
      ((a.populate enabledBackup).graph.member? (.field "backup" "enabled")).bind (·.default?) =
        some ⟨"true", .sampled⟩ := by
  have hbuild : ((build respelledRows).toOption.map fun a =>
      (a.index, a.params, a.childrenOf 3,
        ((a.graph.populate enabledBackup).member? (.field "backup" "enabled")).bind (·.default?))) =
      some ([("backup", 1), ("db", 2), ("store", 3)], [1, 2], [("host", 5)],
        some ⟨"true", .sampled⟩) := by
    decide +kernel
  obtain ⟨a, ha, hparts⟩ := map_toOption_eq_some_iff.mp hbuild
  obtain ⟨hindex, hparams, hchildren, hsample⟩ := by simpa only [Prod.mk.injEq] using hparts
  obtain ⟨hlaid, hgraph⟩ := (build_laidOut respelledRows).2 a ha [enabledBackup]
  refine ⟨a, ha, hlaid, hindex, hparams, hchildren, ?_⟩
  rw [← hsample]
  exact congrArg (fun g : TypeGraph => (g.member? (.field "backup" "enabled")).bind (·.default?)) hgraph

end AnnotatedValues.Arena
