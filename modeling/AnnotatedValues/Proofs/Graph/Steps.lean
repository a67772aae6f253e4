import AnnotatedValues.Proofs.Fallible
import AnnotatedValues.Proofs.Graph.Lookup

/-!
# What one row makes of a graph

A row that is read adds a parameter, a declared type, an enumeration or a field,
or it adds nothing.  The graph that it makes is described here once, in both
directions; what rows keep and what they say is read off this description.
-/

namespace AnnotatedValues

open Annotation Fallible

/-! ## Parts of a row -/

namespace Annotation.Row

/-- The type expression in the block, if it can be read. -/
def type? (row : Row) : Option TypeExpr := (TypeExpr.ofBlock row.typeBlock).toOption

theorem type?_eq_some_iff {row : Row} {type : TypeExpr} :
    row.type? = some type ↔ TypeExpr.ofBlock row.typeBlock = .ok type :=
  toOption_eq_some_iff

/-- The parent and the name of the field that a row declares. -/
def fieldPath? (row : Row) : Option (String × String) :=
  match row.kind, row.path with
  | .field, [parent, name] => some (parent, name)
  | _, _ => none

theorem fieldPath?_eq_some_iff {row : Row} {parent name : String} :
    row.fieldPath? = some (parent, name) ↔ row.kind = .field ∧ row.path = [parent, name] := by
  unfold fieldPath?
  constructor
  · intro h
    split at h
    · rename_i hkind hpath
      cases h
      exact ⟨hkind, hpath⟩
    · cases h
  · rintro ⟨hkind, hpath⟩
    rw [hkind, hpath]

end Annotation.Row

namespace TypeGraph

variable {g g' : TypeGraph} {row : Row} {type : TypeExpr}

/-! ## Members and the types that they mention -/

/-- The graph with a node for the name in a type, unless that is built in. -/
def mention (g : TypeGraph) (type : TypeExpr) : TypeGraph :=
  if Builtin.isName type.base then g else g.ensureNode type.base

/-- What holds of a graph both without and with a node for the name in a type holds once the type
is mentioned. -/
theorem mention_induction {motive : TypeGraph → Prop} (hg : motive g)
    (hnode : motive (g.ensureNode type.base)) : motive (g.mention type) := by
  unfold mention
  split
  · exact hg
  · exact hnode

@[simp] theorem fields_mention (g : TypeGraph) (type : TypeExpr) :
    (g.mention type).fields = g.fields :=
  mention_induction (motive := fun g' => g'.fields = g.fields) rfl (fields_ensureNode g _)

@[simp] theorem params_mention (g : TypeGraph) (type : TypeExpr) :
    (g.mention type).params = g.params :=
  mention_induction (motive := fun g' => g'.params = g.params) rfl (params_ensureNode g _)

@[simp] theorem field?_mention (g : TypeGraph) (type : TypeExpr) (owner name : String) :
    (g.mention type).field? owner name = g.field? owner name := by
  simp [field?]

/-- The graph after a row for the member at a slot. -/
def withMember (g : TypeGraph) (slot : Slot) (row : Row) (type : TypeExpr) : TypeGraph :=
  (g.updateMember slot (rowMember row type)).mention type

theorem assign_eq_ok_iff {slot : Slot} :
    g.assign slot row = .ok g' ↔ ∃ type, row.type? = some type ∧ g' = g.withMember slot row type := by
  simp only [assign, bind_eq_ok_iff, pure_eq_ok_iff, Row.type?_eq_some_iff, eq_comm (b := g')]
  rfl

/-! ## Nodes -/

theorem node?_updateNode_ensureNode (g : TypeGraph) (name : String) (f : Node → Node)
    (key : String) :
    ((g.ensureNode name).updateNode (keyOf name) f).node? key =
      if keyOf name = key then some (f ((g.node? key).getD (.named name))) else g.node? key := by
  rw [node?_updateNode, node?_ensureNode]
  by_cases hkey : keyOf name = key
  · subst hkey
    rw [if_pos rfl, if_pos rfl, if_pos rfl]
    cases g.node? (keyOf name) <;> rfl
  · rw [if_neg (Ne.symm hkey), if_neg (Ne.symm hkey), if_neg hkey, Option.or_none]

/-! ## Declarations -/

/-- The graph with a parameter that may have no type yet. -/
def ensureUntyped (g : TypeGraph) (name : String) : TypeGraph :=
  ((g.ensureNode name).updateNode (keyOf name) fun node =>
    { node with isParam := true, name }).ensureParam (keyOf name)

theorem node?_ensureUntyped (g : TypeGraph) (name key : String) :
    (g.ensureUntyped name).node? key =
      if keyOf name = key then
        some { (g.node? key).getD (.named name) with isParam := true, name }
      else g.node? key := by
  rw [ensureUntyped, node?_ensureParam, node?_updateNode_ensureNode]

theorem map_fst_ensureUntyped (g : TypeGraph) (name : String) :
    (g.ensureUntyped name).nodes.map Prod.fst = (g.ensureNode name).nodes.map Prod.fst := by
  rw [ensureUntyped, nodes_ensureParam, nodes_updateNode, map_fst_modifyNode]

@[simp] theorem fields_ensureUntyped (g : TypeGraph) (name : String) :
    (g.ensureUntyped name).fields = g.fields := by
  simp [ensureUntyped]

@[simp] theorem params_ensureUntyped (g : TypeGraph) (name : String) :
    (g.ensureUntyped name).params = adding g.params (keyOf name) := by
  rw [ensureUntyped, params_ensureParam, params_updateNode, params_ensureNode]

/-- The graph with the parameter that a row declares. -/
def withParam (g : TypeGraph) (name : String) (row : Row) (type : TypeExpr) : TypeGraph :=
  (g.ensureUntyped name).withMember (.node (keyOf name)) row type

/-- The graph with the type that a row declares. -/
def withTypedef (g : TypeGraph) (name : String) (row : Row) : TypeGraph :=
  (g.ensureNode name).updateNode (keyOf name) fun node =>
    { node with isTypedef := true, doc := row.description }

/-- The graph with the enumeration that a row declares. -/
def withEnum (g : TypeGraph) (name : String) (row : Row) : TypeGraph :=
  (g.ensureNode name).updateNode (keyOf name) fun node =>
    { node with doc := row.description, enum? := some ⟨row.typeBlock, row.choices⟩ }

/-- What a row makes of a graph while declarations are read. -/
inductive Declares (g : TypeGraph) (row : Row) : TypeGraph → Prop where
  | nothing (h : row.kind = .field ∨ row.path = []) : Declares g row g
  | param {name : String} {rest : List String} {type : TypeExpr} (hkind : row.kind = .param)
      (hpath : row.path = name :: rest) (htype : row.type? = some type) :
      Declares g row (g.withParam name row type)
  | typedef {name : String} {rest : List String} (hkind : row.kind = .typedef)
      (hpath : row.path = name :: rest) : Declares g row (g.withTypedef name row)
  | enum {name : String} {rest : List String} (hkind : row.kind = .enum)
      (hpath : row.path = name :: rest) : Declares g row (g.withEnum name row)

theorem declare_eq_ok_iff : declare g row = .ok g' ↔ Declares g row g' := by
  unfold declare
  constructor
  · intro h
    split at h
    · rename_i hpath
      cases h
      exact .nothing (Or.inr hpath)
    · rename_i name rest hpath
      dsimp only at h
      split at h
      · rename_i hkind
        obtain ⟨type, htype, rfl⟩ := assign_eq_ok_iff.mp h
        exact .param hkind hpath htype
      · rename_i hkind
        cases h
        exact .typedef hkind hpath
      · rename_i hkind
        cases h
        exact .enum hkind hpath
      · rename_i hkind
        cases h
        exact .nothing (Or.inl hkind)
  · intro h
    cases h with
    | nothing h =>
        cases hpath : row.path with
        | nil => rfl
        | cons name rest =>
            have hkind : row.kind = .field := h.resolve_right (hpath ▸ List.cons_ne_nil name rest)
            rw [hkind]
    | param hkind hpath htype =>
        rw [hkind, hpath]
        exact assign_eq_ok_iff.mpr ⟨_, htype, rfl⟩
    | typedef hkind hpath | enum hkind hpath =>
        rw [hkind, hpath]
        rfl

/-! ## Fields -/

/-- The graph with the field that a row declares. -/
def withField (g : TypeGraph) (owner name : String) (row : Row) (type : TypeExpr) : TypeGraph :=
  let updated := ((g.ensureNode owner).ensureField (keyOf owner) name).updateMember
    (.field (keyOf owner) name) (rowMember row type)
  if Builtin.isName type.base then updated else updated.ensureNode type.base

theorem withField_eq (g : TypeGraph) (owner name : String) (row : Row) (type : TypeExpr) :
    g.withField owner name row type =
      ((g.ensureNode owner).ensureField (keyOf owner) name).withMember (.field (keyOf owner) name)
        row type :=
  rfl

/-- What a row makes of a graph while fields are placed. -/
inductive Places (declared g : TypeGraph) (placed : List Placement) (row : Row) :
    TypeGraph × List Placement → Prop where
  | nothing (h : row.fieldPath? = none) : Places declared g placed row (g, placed)
  | field {parent name : String} {type : TypeExpr} (hpath : row.fieldPath? = some (parent, name))
      (htype : row.type? = some type) :
      Places declared g placed row
        (g.withField (fieldParent declared g parent) name row type,
          placed ++ [(row, keyOf (fieldParent declared g parent))])

variable {declared : TypeGraph} {placed : List Placement} {state' : TypeGraph × List Placement}

theorem Places.of_fieldPath? {parent name : String} (h : Places declared g placed row state')
    (hpath : row.fieldPath? = some (parent, name)) :
    ∃ type, row.type? = some type ∧
      state' = (g.withField (fieldParent declared g parent) name row type,
        placed ++ [(row, keyOf (fieldParent declared g parent))]) := by
  cases h with
  | nothing hnone => cases hpath.symm.trans hnone
  | field hpath' htype =>
      cases hpath.symm.trans hpath'
      exact ⟨_, htype, rfl⟩

theorem place_of_fieldPath?_eq_none (h : row.fieldPath? = none)
    (state : TypeGraph × List Placement) : place declared state row = .ok state := by
  unfold place
  split
  · rename_i hkind hpath
    rw [Row.fieldPath?_eq_some_iff.mpr ⟨hkind, hpath⟩] at h
    cases h
  · rfl

theorem place_eq_ok_iff :
    place declared (g, placed) row = .ok state' ↔ Places declared g placed row state' := by
  constructor
  · intro h
    cases hpath : row.fieldPath? with
    | none =>
        rw [place_of_fieldPath?_eq_none hpath] at h
        cases h
        exact .nothing hpath
    | some path =>
        obtain ⟨hkind, hnames⟩ := Row.fieldPath?_eq_some_iff.mp hpath
        unfold place at h
        rw [hkind, hnames] at h
        obtain ⟨_, hassigned, hplaced⟩ := bind_eq_ok_iff.mp h
        obtain ⟨type, htype, rfl⟩ := assign_eq_ok_iff.mp hassigned
        rw [pure_eq_ok_iff] at hplaced
        subst hplaced
        exact .field hpath htype
  · intro h
    cases h with
    | nothing h => exact place_of_fieldPath?_eq_none h _
    | field hpath htype =>
        obtain ⟨hkind, hnames⟩ := Row.fieldPath?_eq_some_iff.mp hpath
        unfold place
        rw [hkind, hnames]
        exact bind_eq_ok_iff.mpr ⟨_, assign_eq_ok_iff.mpr ⟨_, htype, rfl⟩, rfl⟩

end TypeGraph

end AnnotatedValues
