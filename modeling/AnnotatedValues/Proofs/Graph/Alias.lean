import AnnotatedValues.Proofs.Graph.Rows
import AnnotatedValues.Proofs.Resolved.Resolution

/-!
# Fields under a parameter or under its type

A parameter that is neither a declared type nor an enumeration stands for its
type as the parent of fields.  Which of the two names a row has for the parent
makes no difference for the graph: the field is placed below the same node,
which there is already, and nothing is said about the row, for the type is
referenced.
-/

namespace AnnotatedValues

open Annotation Fallible

/-! ## Rows under another parent -/

/-- A row, and the same one or a row for the same field under a parent that has also one of two
keys. -/
inductive Reparented (key other : String) : Row → Row → Prop where
  | same (row : Row) : Reparented key other row row
  | moved {row : Row} {parent name : String} (hpath : row.fieldPath? = some (parent, name))
      (hparent : keyOf parent = key ∨ keyOf parent = other) {parent' : String}
      (hparent' : keyOf parent' = key ∨ keyOf parent' = other) :
      Reparented key other row { row with path := [parent', name] }

namespace TypeGraph

variable {g g' : TypeGraph} {rows rows' : List Row} {row row' : Row} {key other : String}

theorem declare_of_kind_field (h : row.kind = .field) (g : TypeGraph) : declare g row = .ok g :=
  declare_eq_ok_iff.mpr (.nothing (Or.inl h))

/-- What a row declares does not depend on the parents of fields. -/
theorem declare_reparented (h : Reparented key other row row') (g : TypeGraph) :
    declare g row = declare g row' := by
  cases h with
  | same => rfl
  | moved hpath hparent hparent' =>
      have hkind := (Row.fieldPath?_eq_some_iff.mp hpath).1
      rw [declare_of_kind_field hkind, declare_of_kind_field]
      exact hkind

theorem foldlM_declare_reparented (h : List.Forall₂ (Reparented key other) rows rows')
    (g : TypeGraph) : rows.foldlM declare g = rows'.foldlM declare g := by
  induction h generalizing g with
  | nil => rfl
  | cons hhead _ ih =>
      rw [List.foldlM_cons, List.foldlM_cons, declare_reparented hhead]
      exact bind_congr ih

/-! ## Nodes that there are -/

theorem ensureNode_of_isSome {name : String} (h : (g.node? (keyOf name)).isSome = true) :
    g.ensureNode name = g :=
  if_pos h

/-- The spelling of the owner does not matter if it has a node. -/
theorem withField_congr {owner owner' : String} (hkey : keyOf owner = keyOf owner')
    (hknown : (g.node? (keyOf owner)).isSome = true) (name : String) (row : Row)
    (type : TypeExpr) :
    g.withField owner name row type = g.withField owner' name row type := by
  rw [withField_eq, withField_eq, ensureNode_of_isSome hknown,
    ensureNode_of_isSome (hkey ▸ hknown), hkey]

/-- Placing a field keeps nodes. -/
theorem isSome_node?_place {declared : TypeGraph} {placed : List Placement}
    {state' : TypeGraph × List Placement} (h : place declared (g, placed) row = .ok state')
    (hknown : (g.node? key).isSome = true) : (state'.1.node? key).isSome = true := by
  have hmentions : ∀ s ∈ Saying.about key (row.places (fieldParent declared g)),
      s = .mention s.name :=
    fun s hs => Row.eq_mention_of_mem_places (Saying.mem_about.mp hs).1
  rw [node?_place h, Saying.foldl_apply_of_mentions hmentions, Option.isSome_or, hknown]
  rfl

/-! ## Both rows in turn -/

/-- Two placements below one node, which are the same unless this is the node with the key. -/
def SamePlacement (key : String) (p q : Placement) : Prop := p.2 = q.2 ∧ (p.2 = key ∨ p.1 = q.1)

/-- The states of the two runs while fields are placed. -/
structure Alike (declared : TypeGraph) (key : String)
    (state state' : TypeGraph × List Placement) : Prop where
  graph : state.1 = state'.1
  placed : List.Forall₂ (SamePlacement key) state.2 state'.2
  owners : fieldParent declared state.1 = fieldParent declared declared
  known : (state.1.node? key).isSome = true

theorem Alike.place {declared : TypeGraph} {target : String}
    (howner : ∀ parent, keyOf parent = key ∨ keyOf parent = target →
      keyOf (fieldParent declared declared parent) = target)
    {state state' next : TypeGraph × List Placement} (h : Alike declared target state state')
    (hrow : Reparented key target row row') (hstep : place declared state row = .ok next) :
    ∃ next', TypeGraph.place declared state' row' = .ok next' ∧
      Alike declared target next next' := by
  obtain ⟨g, placed⟩ := state
  obtain ⟨g', placed'⟩ := state'
  obtain ⟨hgraph, hplaced, howners, hknown⟩ := h
  have hgraph : g = g' := hgraph
  subst hgraph
  have howners' : fieldParent declared next.1 = fieldParent declared declared :=
    (fieldParent_place hstep).trans howners
  have hknown' : (next.1.node? target).isSome = true := isSome_node?_place hstep hknown
  have howners : fieldParent declared g = fieldParent declared declared := howners
  cases hrow with
  | same =>
      cases place_eq_ok_iff.mp hstep with
      | nothing hpath =>
          exact ⟨_, place_eq_ok_iff.mpr (.nothing hpath), rfl, hplaced, howners', hknown'⟩
      | field hpath htype =>
          refine ⟨_, place_eq_ok_iff.mpr (.field hpath htype), rfl, ?_, howners', hknown'⟩
          exact List.rel_append hplaced (.cons ⟨rfl, Or.inr rfl⟩ .nil)
  | @moved parent name hpath hparent parent' hparent' =>
      obtain ⟨type, htype, rfl⟩ := (place_eq_ok_iff.mp hstep).of_fieldPath? hpath
      obtain ⟨hkind, -⟩ := Row.fieldPath?_eq_some_iff.mp hpath
      have hpath' : Row.fieldPath? { row with path := [parent', name] } = some (parent', name) :=
        Row.fieldPath?_eq_some_iff.mpr ⟨hkind, rfl⟩
      have hkey : keyOf (fieldParent declared g parent) = target := by
        rw [howners]
        exact howner parent hparent
      have hkey' : keyOf (fieldParent declared g parent') = target := by
        rw [howners]
        exact howner parent' hparent'
      have hnext : g.withField (fieldParent declared g parent) name row type =
          g.withField (fieldParent declared g parent') name row type := by
        refine withField_congr (hkey.trans hkey'.symm) ?_ name row type
        rw [hkey]
        exact hknown
      refine ⟨_, place_eq_ok_iff.mpr (.field hpath' htype), hnext, ?_, howners', hknown'⟩
      exact List.rel_append hplaced (.cons ⟨hkey.trans hkey'.symm, Or.inl hkey⟩ .nil)

/-- Nothing is said about fields of a node that is referenced. -/
theorem unreferencedFields_congr {placed placed' : List Placement}
    (hreferenced : g.isReferenced key = true)
    (h : List.Forall₂ (SamePlacement key) placed placed') :
    g.unreferencedFields placed = g.unreferencedFields placed' := by
  unfold unreferencedFields
  induction h with
  | nil => rfl
  | @cons p q placed placed' hhead _ ih =>
      obtain ⟨hkey, hcases⟩ := hhead
      rcases hcases with htarget | hrow
      · have hp : g.isReferenced p.2 = true := htarget ▸ hreferenced
        have hq : g.isReferenced q.2 = true := hkey ▸ hp
        rw [List.filter_cons_of_neg (by simp [hp]), List.filter_cons_of_neg (by simp [hq])]
        exact ih
      · have hsame : p = q := Prod.ext hrow hkey
        rw [hsame, List.filter_cons, List.filter_cons]
        split
        · rw [List.map_cons, List.map_cons, ih]
        · exact ih

/-! ## The parameter and its type -/

/-- The parameter at a key is no declared type itself and has a type that is not built in and has
another name, which is a declared type's or does not stand for a further type. -/
structure Aliases (g : TypeGraph) (key : String) (type : TypeExpr) : Prop where
  param : ∃ node, g.node? key = some node ∧ node.isParam = true ∧ node.member.type? = some type
  named : Builtin.isName type.base = false
  distinct : keyOf type.base ≠ key
  plain : g.isDeclared key = false
  direct : g.isDeclared (keyOf type.base) = true ∨ g.alias? (keyOf type.base) = none

namespace Aliases

variable {type : TypeExpr}

theorem alias?_eq (h : g.Aliases key type) : g.alias? key = some type.base := by
  obtain ⟨node, hnode, hparam, htype⟩ := h.param
  exact alias?_eq_some_iff.mpr ⟨node, type, hnode, hparam, htype, h.named, h.distinct, rfl⟩

/-- Fields of the parameter and of its type belong to the node of the type. -/
theorem keyOf_ownerOf (h : g.Aliases key type) {parent : String}
    (hparent : keyOf parent = key ∨ keyOf parent = keyOf type.base) :
    keyOf (g.ownerOf parent) = keyOf type.base := by
  unfold ownerOf fieldParent
  rcases hparent with hkey | hkey
  · rw [hkey, h.plain, if_neg Bool.false_ne_true, h.alias?_eq, Option.getD_some]
  · rw [hkey]
    rcases h.direct with hdeclared | halias
    · rw [if_pos hdeclared]
      exact hkey
    · rw [halias, Option.getD_none, ite_self]
      exact hkey

/-- The type is referenced by the parameter. -/
theorem isReferenced (h : g.Aliases key type) (hg : g.WellFormed)
    (hknown : (g.node? (keyOf type.base)).isSome = true) :
    g.isReferenced (keyOf type.base) = true := by
  obtain ⟨node, hnode, -, htype⟩ := h.param
  obtain ⟨target, htarget⟩ := Option.isSome_iff_exists.mp hknown
  have hmember : g.member? (.node key) = some node.member := by
    rw [member?, hnode]
    rfl
  have hmentioned : keyOf type.base ∈ g.mentioned :=
    List.mem_filterMap.mpr
      ⟨node.member, Resolver.mem_members_of_member? hmember, by rw [htype]; rfl⟩
  unfold TypeGraph.isReferenced
  rw [htarget]
  dsimp only
  rw [hg.keyOf_name htarget, List.contains_iff_mem.mpr hmentioned, Bool.or_true]

end Aliases

/-- The declarations have a node for the type of each parameter. -/
theorem isSome_node?_declared (hg : build rows = .ok g) {declared : TypeGraph}
    (hdeclared : rows.foldlM declare .empty = .ok declared) {node : Node} {type : TypeExpr}
    (hnode : g.node? key = some node) (htype : node.member.type? = some type)
    (hbase : Builtin.isName type.base = false) :
    (declared.node? (keyOf type.base)).isSome = true := by
  rw [node?_build hg] at hnode
  obtain ⟨name, row, hparam⟩ := Saying.exists_param_of_summary hnode htype
  have hdeclares : Saying.param name row type ∈ rows.flatMap Row.declares := by
    rcases List.mem_append.mp (Saying.mem_about.mp hparam).1 with hdeclares | hplaces
    · exact hdeclares
    · obtain ⟨place, -, hplace⟩ := List.mem_flatMap.mp hplaces
      cases Row.eq_mention_of_mem_places hplace
  obtain ⟨declaring, hrow, hsaying⟩ := List.mem_flatMap.mp hdeclares
  have hmention : Saying.mention type.base ∈ rows.flatMap Row.declares :=
    List.mem_flatMap.mpr ⟨declaring, hrow,
      Row.mentions_subset_declares hsaying (TypeExpr.mem_mentions.mpr ⟨hbase, rfl⟩)⟩
  rw [node?_foldlM_declare hdeclared]
  exact Saying.isSome_summary
    (List.ne_nil_of_mem (Saying.mem_about.mpr ⟨hmention, Saying.key_mention _⟩))

/-- Rows that place fields below the parameter and rows that place them below its type build the
same graph. -/
theorem build_reparented {type : TypeExpr} (hg : build rows = .ok g) (h : g.Aliases key type)
    (hrows : List.Forall₂ (Reparented key (keyOf type.base)) rows rows') :
    build rows' = .ok g := by
  obtain ⟨declared, g₂, placed, hdeclared, hplaced, hfinal, howners⟩ := exists_passes_of_build hg
  obtain ⟨node, hnode, -, htype⟩ := h.param
  have hdeclared' : rows'.foldlM declare .empty = .ok declared := by
    rw [← foldlM_declare_reparented hrows]
    exact hdeclared
  have hknown : (declared.node? (keyOf type.base)).isSome = true :=
    isSome_node?_declared hg hdeclared hnode htype h.named
  have howner : ∀ parent, keyOf parent = key ∨ keyOf parent = keyOf type.base →
      keyOf (fieldParent declared declared parent) = keyOf type.base := by
    intro parent hparent
    rw [howners]
    exact h.keyOf_ownerOf hparent
  have hstart : Alike declared (keyOf type.base) (declared, []) (declared, []) :=
    ⟨rfl, .nil, rfl, hknown⟩
  obtain ⟨⟨g₂', placed'⟩, hplaced', halike⟩ :=
    foldlM_related (fun hstate hrow hstep => hstate.place howner hrow hstep) hrows hstart hplaced
  have hsame : g₂ = g₂' := halike.graph
  subst hsame
  have hreferenced : g₂.isReferenced (keyOf type.base) = true := by
    have hfinally : g.isReferenced (keyOf type.base) = true := by
      refine h.isReferenced (WellFormed.build hg) ?_
      rw [hfinal]
      exact halike.known
    rw [hfinal] at hfinally
    exact hfinally
  rw [build_eq_ok_iff]
  refine ⟨declared, g₂, placed', hdeclared', hplaced', ?_⟩
  rw [hfinal, unreferencedFields_congr hreferenced halike.placed]

namespace Aliases

variable {type : TypeExpr}

/-- Fields may be written under the parameter or under its type: the graph is the same.  Those
written under the parameter are fields of the node of its type, which is then the struct inside the
parameter's type, unless it has values of an enumeration. -/
theorem fields_under_either_name (hg : build rows = .ok g) (h : g.Aliases key type) :
    (∀ rows', List.Forall₂ (Reparented key (keyOf type.base)) rows rows' → build rows' = .ok g) ∧
      ∀ row ∈ rows, ∀ parent name, row.fieldPath? = some (parent, name) → keyOf parent = key →
        g.lookup? type.base = some (keyOf type.base) ∧
        (∃ field, g.field? (keyOf type.base) name = some field) ∧
        ((∀ node decl, g.node? (keyOf type.base) = some node → node.enum? = some decl →
            decl.values.isEmpty = true) →
          ∃ t, (Resolver.ofGraph g).resolveSlot (.node key) = .ok t ∧
            t.innermost? = some ((Resolver.ofGraph g).structRef (keyOf type.base))) := by
  refine ⟨fun rows' hrows => build_reparented hg h hrows, ?_⟩
  intro row hrow parent name hpath hparent
  have hwell : g.WellFormed := WellFormed.build hg
  have hslot : row.slot? g.ownerOf = some (.field (keyOf type.base) name) := by
    rw [Row.slot?, hpath, Option.map_some, h.keyOf_ownerOf (Or.inl hparent)]
  obtain ⟨field, hfield⟩ := exists_field?_of_slot? hg hrow hslot
  have hknown : (g.node? (keyOf type.base)).isSome = true := hwell.owner_known hfield
  refine ⟨if_pos hknown, ⟨field, hfield⟩, fun hvalueless => ?_⟩
  obtain ⟨target, htarget⟩ := Option.isSome_iff_exists.mp hknown
  obtain ⟨node, hnode, -, htype⟩ := h.param
  have hstruct : (Resolver.ofGraph g).resolveName type.base =
      .ok (.struct ((Resolver.ofGraph g).structRef (keyOf type.base))) := by
    rw [Resolver.resolveName_eq_struct_iff (r := .ofGraph g) hwell]
    have hfields : g.hasFields (keyOf type.base) = true := hasFields_iff.mpr ⟨name, field, hfield⟩
    have hplain : (Resolver.ofGraph g).enumRef? (keyOf type.base) = none :=
      (Resolver.enumRef?_eq_none_iff (r := .ofGraph g) htarget).mpr fun decl hdecl =>
        hvalueless target decl htarget hdecl
    exact ⟨h.named, hfields, Or.inr hplain, rfl⟩
  obtain ⟨t, ht⟩ := Resolver.exists_resolve_of_resolveName hstruct
  have hmember : g.member? (.node key) = some node.member := by
    rw [member?, hnode]
    rfl
  refine ⟨t, (Resolver.resolveSlot_eq (r := .ofGraph g) hmember htype).trans ht, ?_⟩
  have hleaf := Resolver.resolveName_of_resolve (r := .ofGraph g) hwell ht
  rw [hstruct] at hleaf
  rw [Resolved.innermost?_eq_leaf, ← Except.ok.inj hleaf]
  rfl

end Aliases

/-- A parameter with a field under its own name and one under that of its type. -/
def aliasRows : List Row :=
  [⟨.param, ["main"], "*Size", [], "", "", false, 1⟩,
    ⟨.field, ["MAIN", "x"], "int", [], "", "", false, 2⟩,
    ⟨.field, ["size", "y"], "int", [], "", "", false, 3⟩]

/-- The same with the names exchanged. -/
def exchangedRows : List Row :=
  [⟨.param, ["main"], "*Size", [], "", "", false, 1⟩,
    ⟨.field, ["SIZE", "x"], "int", [], "", "", false, 2⟩,
    ⟨.field, ["main", "y"], "int", [], "", "", false, 3⟩]

theorem aliasRows_graph :
    ((build aliasRows).toOption.map fun g =>
      ((g.node? "main").map fun n => (n.isParam, n.member.type?), g.isDeclared "main",
        g.isDeclared "size", g.alias? "size")) =
      some (some (true, some (.pointer (.named "Size"))), false, false, none) := by
  decide +kernel

theorem reparented_aliasRows : List.Forall₂ (Reparented "main" "size") aliasRows exchangedRows := by
  have hmain : keyOf "main" = "main" := by decide
  have hMain : keyOf "MAIN" = "main" := by decide
  have hsize : keyOf "size" = "size" := by decide
  have hSize : keyOf "SIZE" = "size" := by decide
  exact .cons (.same _) (.cons (.moved rfl (Or.inl hMain) (Or.inr hSize))
    (.cons (.moved rfl (Or.inr hsize) (Or.inl hmain)) .nil))

/-- Both build one graph, in which the type of the parameter is the struct with its field. -/
theorem build_exchangedRows :
    ∃ g, build aliasRows = .ok g ∧ build exchangedRows = .ok g ∧
      (∃ field, g.field? "size" "x" = some field) := by
  obtain ⟨g, hg, hgraph⟩ := map_toOption_eq_some_iff.mp aliasRows_graph
  simp only [Prod.mk.injEq] at hgraph
  obtain ⟨hmain, hplain, -, halias⟩ := hgraph
  obtain ⟨node, hnode, hmember⟩ := Option.map_eq_some_iff.mp hmain
  simp only [Prod.mk.injEq] at hmember
  have hkey : keyOf (TypeExpr.pointer (.named "Size")).base = "size" := by decide
  have h : g.Aliases "main" (.pointer (.named "Size")) := by
    refine ⟨⟨node, hnode, hmember.1, hmember.2⟩, by decide, ?_, hplain, Or.inr ?_⟩
    · rw [hkey]
      decide
    · rw [hkey]
      exact halias
  obtain ⟨hsame, hfields⟩ := Aliases.fields_under_either_name hg h
  rw [hkey] at hsame hfields
  obtain ⟨-, hfield, -⟩ := hfields ⟨.field, ["MAIN", "x"], "int", [], "", "", false, 2⟩
    (List.mem_cons_of_mem _ List.mem_cons_self) "MAIN" "x" rfl (by decide)
  exact ⟨g, hg, hsame exchangedRows reparented_aliasRows, hfield⟩

end TypeGraph

end AnnotatedValues
