import AnnotatedValues.Proofs.Fallible
import AnnotatedValues.Proofs.Graph.WellFormed
import Mathlib.Data.List.Induction

/-!
# What rows say about a name

A row says something about each name in it: that it is a parameter, a declared
type or an enumeration, or no more than that there is such a name.  A node of
the graph of some rows is what their sayings about its name amount to, in their
order, whatever they say about other names; and a field is what the rows for
its slot amount to.
-/

namespace AnnotatedValues

open Annotation Fallible

/-! ## Sayings -/

/-- What a row says about a name. -/
inductive Saying where
  | mention (name : String)
  | param (name : String) (row : Row) (type : TypeExpr)
  | typedef (name doc : String)
  | enum (name doc : String) (decl : EnumDecl)

namespace Saying

def name : Saying → String
  | .mention name | .param name _ _ | .typedef name _ | .enum name _ _ => name

/-- The key of the node that it is about. -/
def key (s : Saying) : String := keyOf s.name

@[simp] theorem key_mention (name : String) : (mention name).key = keyOf name := rfl
@[simp] theorem key_param (name : String) (row : Row) (type : TypeExpr) :
    (param name row type).key = keyOf name := rfl
@[simp] theorem key_typedef (name doc : String) : (typedef name doc).key = keyOf name := rfl
@[simp] theorem key_enum (name doc : String) (decl : EnumDecl) :
    (enum name doc decl).key = keyOf name := rfl

/-- What it changes in that node. -/
def update : Saying → Node → Node
  | .mention _, node => node
  | .param name row type, node =>
    { node with isParam := true, name, member := TypeGraph.rowMember row type node.member }
  | .typedef _ doc, node => { node with isTypedef := true, doc }
  | .enum _ doc decl, node => { node with doc, enum? := some decl }

/-- The node after it, which there is in any case. -/
def apply (node? : Option Node) (s : Saying) : Option Node :=
  some (s.update (node?.getD (.named s.name)))

/-- What sayings about one name amount to. -/
def summary (sayings : List Saying) : Option Node := sayings.foldl apply none

/-- Those of some sayings that are about the name with a key. -/
def about (key : String) (sayings : List Saying) : List Saying :=
  sayings.filter fun s => s.key == key

theorem mem_about {key : String} {s : Saying} {sayings : List Saying} :
    s ∈ about key sayings ↔ s ∈ sayings ∧ s.key = key := by
  rw [about, List.mem_filter, beq_iff_eq]

theorem about_cons (key : String) (s : Saying) (sayings : List Saying) :
    about key (s :: sayings) =
      if s.key = key then s :: about key sayings else about key sayings := by
  simp only [about, List.filter_cons, beq_iff_eq]

theorem about_append (key : String) (before after : List Saying) :
    about key (before ++ after) = about key before ++ about key after :=
  List.filter_append before after

theorem about_flatMap {α : Type} (key : String) (f : α → List Saying) (as : List α) :
    about key (as.flatMap f) = as.flatMap fun a => about key (f a) :=
  List.filter_flatMap

theorem summary_append (before after : List Saying) :
    summary (before ++ after) = after.foldl apply (summary before) :=
  List.foldl_append

/-- Whatever is said of a name, it has a node. -/
theorem isSome_summary {sayings : List Saying} (h : sayings ≠ []) :
    (summary sayings).isSome = true := by
  induction sayings using List.reverseRecOn with
  | nil => exact absurd rfl h
  | append_singleton sayings s _ => rw [summary_append]; rfl

/-- The type of a node is one that was said of it. -/
theorem exists_param_of_summary {sayings : List Saying} {node : Node} {type : TypeExpr}
    (hnode : summary sayings = some node) (htype : node.member.type? = some type) :
    ∃ name row, .param name row type ∈ sayings := by
  induction sayings using List.reverseRecOn generalizing node with
  | nil => cases hnode
  | append_singleton sayings s ih =>
      rw [summary_append] at hnode
      have hlast : s.update ((summary sayings).getD (.named s.name)) = node := Option.some.inj hnode
      have hearlier : ((summary sayings).getD (.named s.name)).member.type? = some type →
          ∃ name row, .param name row type ∈ sayings ++ [s] := by
        intro hmember
        cases hsummary : summary sayings with
        | none =>
            rw [hsummary] at hmember
            cases hmember
        | some earlier =>
            rw [hsummary] at hmember
            obtain ⟨name, row, hmem⟩ := ih hsummary hmember
            exact ⟨name, row, List.mem_append_left _ hmem⟩
      subst hlast
      cases s with
      | param name row other =>
          cases htype
          exact ⟨name, row, List.mem_append_right _ (List.mem_singleton_self _)⟩
      | mention name => exact hearlier htype
      | typedef name doc => exact hearlier htype
      | enum name doc decl => exact hearlier htype

/-- Mentions give a node only where there is none. -/
theorem foldl_apply_of_mentions {sayings : List Saying}
    (h : ∀ s ∈ sayings, s = .mention s.name) (node? : Option Node) :
    sayings.foldl apply node? = node?.or (sayings.head?.map fun s => .named s.name) := by
  induction sayings generalizing node? with
  | nil => simp
  | cons s sayings ih =>
      rw [List.forall_mem_cons] at h
      rw [List.foldl_cons, ih h.2, List.head?_cons, Option.map_some, apply, h.1]
      cases node? <;> rfl

end Saying

/-! ## Sayings of a row -/

/-- A type mentions its name, unless that is built in. -/
def TypeExpr.mentions (type : TypeExpr) : List Saying :=
  if Builtin.isName type.base then [] else [.mention type.base]

theorem TypeExpr.mem_mentions {type : TypeExpr} {s : Saying} :
    s ∈ type.mentions ↔ Builtin.isName type.base = false ∧ s = .mention type.base := by
  unfold TypeExpr.mentions
  cases Builtin.isName type.base with
  | true => simp
  | false => simp

namespace Annotation.Row

/-- The name that a row declares as that of something of a kind. -/
def declaredName? (kind : Kind) (row : Row) : Option String :=
  if row.kind = kind then row.path.head? else none

/-- What a row says that declares a parameter or a type. -/
def declares (row : Row) : List Saying :=
  match row.kind, row.path with
  | .param, name :: _ =>
    match row.type? with
    | some type => .param name row type :: type.mentions
    | none => []
  | .typedef, name :: _ => [.typedef name row.description]
  | .enum, name :: _ => [.enum name row.description ⟨row.typeBlock, row.choices⟩]
  | _, _ => []

/-- What a row says that declares a field, where `owner` gives the name of the node that fields of
a parent belong to. -/
def places (owner : String → String) (row : Row) : List Saying :=
  match row.fieldPath?, row.type? with
  | some (parent, _), some type => .mention (owner parent) :: type.mentions
  | _, _ => []

/-- The slot of the field that a row declares. -/
def slot? (owner : String → String) (row : Row) : Option Slot :=
  row.fieldPath?.map fun path => .field (keyOf (owner path.1)) path.2

/-- The field at a slot after a row for it. -/
def fill (owner name : String) (field? : Option Field) (row : Row) : Option Field :=
  match row.type? with
  | some type =>
    some ⟨owner, name, TypeGraph.rowMember row type ((field?.map (·.member)).getD .blank)⟩
  | none => field?

/-- A row declares a parameter and mentions its type, or declares a type or an enumeration. -/
theorem mem_declares_iff {row : Row} {s : Saying} :
    s ∈ row.declares ↔
      (∃ name type, row.declaredName? .param = some name ∧ row.type? = some type ∧
        (s = .param name row type ∨ s ∈ type.mentions)) ∨
      (∃ name, row.declaredName? .typedef = some name ∧ s = .typedef name row.description) ∨
      ∃ name, row.declaredName? .enum = some name ∧
        s = .enum name row.description ⟨row.typeBlock, row.choices⟩ := by
  unfold declares declaredName?
  cases hpath : row.path with
  | nil => cases row.kind <;> simp
  | cons name rest =>
      cases hkind : row.kind with
      | param => cases htype : row.type? <;> simp
      | typedef => simp
      | enum => simp
      | field => simp

/-- A row for a parameter mentions its type. -/
theorem mentions_subset_declares {row declaring : Row} {name : String} {type : TypeExpr}
    (h : Saying.param name declaring type ∈ row.declares) : type.mentions ⊆ row.declares := by
  intro mention hmention
  rw [mem_declares_iff] at h ⊢
  rcases h with ⟨_, _, hname, htype, hsame | hother⟩ | ⟨_, -, hother⟩ | ⟨_, -, hother⟩
  · cases hsame
    exact Or.inl ⟨_, _, hname, htype, Or.inr hmention⟩
  · obtain ⟨-, hother⟩ := TypeExpr.mem_mentions.mp hother
    cases hother
  · cases hother
  · cases hother

theorem mem_places_iff {owner : String → String} {row : Row} {s : Saying} :
    s ∈ row.places owner ↔ ∃ path type, row.fieldPath? = some path ∧ row.type? = some type ∧
      (s = .mention (owner path.1) ∨ s ∈ type.mentions) := by
  unfold places
  cases row.fieldPath? with
  | none => simp
  | some path => cases row.type? <;> simp

theorem eq_mention_of_mem_places {owner : String → String} {row : Row} {s : Saying}
    (h : s ∈ row.places owner) : s = .mention s.name := by
  obtain ⟨path, type, -, -, rfl | hmention⟩ := mem_places_iff.mp h
  · rfl
  · obtain ⟨-, rfl⟩ := TypeExpr.mem_mentions.mp hmention
    rfl

theorem isSome_fieldPath?_of_slot? {owner : String → String} {row : Row} {slot : Slot}
    (h : row.slot? owner = some slot) : row.fieldPath?.isSome = true := by
  obtain ⟨path, hpath, -⟩ := Option.map_eq_some_iff.mp h
  rw [hpath]
  rfl

/-- Rows whose types can be read leave a field. -/
theorem isSome_foldl_fill {rows : List Row} (hne : rows ≠ [])
    (htyped : ∀ row ∈ rows, row.type?.isSome = true) (owner name : String) :
    (rows.foldl (fill owner name) none).isSome = true := by
  induction rows using List.reverseRecOn with
  | nil => exact absurd rfl hne
  | append_singleton rows row _ =>
      obtain ⟨type, htype⟩ := Option.isSome_iff_exists.mp
        (htyped row (List.mem_append_right _ (List.mem_singleton_self _)))
      rw [List.foldl_append, List.foldl_cons, List.foldl_nil, fill, htype]
      rfl

/-- The type of a field is one that a row for it has. -/
theorem exists_row_of_foldl_fill {rows : List Row} {owner name : String} {field : Field}
    {type : TypeExpr} (hfield : rows.foldl (fill owner name) none = some field)
    (htype : field.member.type? = some type) : ∃ row ∈ rows, row.type? = some type := by
  induction rows using List.reverseRecOn with
  | nil => cases hfield
  | append_singleton rows row ih =>
      rw [List.foldl_append, List.foldl_cons, List.foldl_nil, fill] at hfield
      cases hread : row.type? with
      | some other =>
          rw [hread] at hfield
          cases hfield
          cases htype
          exact ⟨row, List.mem_append_right _ (List.mem_singleton_self _), hread⟩
      | none =>
          rw [hread] at hfield
          obtain ⟨earlier, hmem, hearlier⟩ := ih hfield
          exact ⟨earlier, List.mem_append_left _ hmem, hearlier⟩

end Annotation.Row

namespace TypeGraph

variable {g g' : TypeGraph} {row : Row} {rows : List Row}

/-! ## One row -/

theorem node?_mention (g : TypeGraph) (type : TypeExpr) (key : String) :
    (g.mention type).node? key =
      (Saying.about key type.mentions).foldl Saying.apply (g.node? key) := by
  unfold mention TypeExpr.mentions
  cases Builtin.isName type.base with
  | true => rfl
  | false =>
      rw [if_neg Bool.false_ne_true, if_neg Bool.false_ne_true, node?_ensureNode,
        Saying.about_cons, Saying.key_mention]
      by_cases hkey : keyOf type.base = key
      · subst hkey
        rw [if_pos rfl, if_pos rfl]
        cases g.node? (keyOf type.base) <;> rfl
      · rw [if_neg (Ne.symm hkey), if_neg hkey, Option.or_none]
        rfl

theorem node?_updateNode_saying (g : TypeGraph) (s : Saying) (key : String) :
    ((g.ensureNode s.name).updateNode s.key s.update).node? key =
      (Saying.about key [s]).foldl Saying.apply (g.node? key) := by
  rw [Saying.key, node?_updateNode_ensureNode, Saying.about_cons, Saying.key]
  split
  · rfl
  · rfl

theorem node?_withParam (g : TypeGraph) (name : String) (row : Row) (type : TypeExpr)
    (key : String) :
    (g.withParam name row type).node? key =
      (Saying.about key (.param name row type :: type.mentions)).foldl Saying.apply
        (g.node? key) := by
  rw [withParam, withMember, node?_mention, Saying.about_cons, Saying.key_param,
    node?_updateMember_node, ensureUntyped, node?_ensureParam, node?_updateNode_ensureNode]
  by_cases hkey : keyOf name = key
  · subst hkey
    rw [if_pos rfl, if_pos rfl, if_pos rfl]
    rfl
  · rw [if_neg hkey, if_neg (Ne.symm hkey), if_neg hkey]

theorem node?_declare (h : declare g row = .ok g') (key : String) :
    g'.node? key = (Saying.about key row.declares).foldl Saying.apply (g.node? key) := by
  unfold Row.declares
  cases declare_eq_ok_iff.mp h with
  | nothing hnone =>
      rcases hnone with hkind | hpath
      · rw [hkind]
        rfl
      · rw [hpath]
        cases row.kind <;> rfl
  | @param name _ type hkind hpath htype =>
      rw [hkind, hpath]
      dsimp only
      rw [htype]
      exact node?_withParam g name row type key
  | @typedef name _ hkind hpath =>
      rw [hkind, hpath]
      exact node?_updateNode_saying g (.typedef name row.description) key
  | @enum name _ hkind hpath =>
      rw [hkind, hpath]
      exact node?_updateNode_saying g (.enum name row.description ⟨row.typeBlock, row.choices⟩) key

/-- A declaration has no fields. -/
theorem fields_declare (h : declare g row = .ok g') : g'.fields = g.fields := by
  cases declare_eq_ok_iff.mp h with
  | nothing => rfl
  | param => simp [withParam, withMember, ensureUntyped]
  | typedef | enum => simp [withTypedef, withEnum]

theorem exists_declare_iff (g : TypeGraph) (row : Row) :
    (∃ g', declare g row = .ok g') ↔
      (row.kind = .param → row.path ≠ [] → row.type?.isSome = true) := by
  simp only [declare_eq_ok_iff]
  constructor
  · rintro ⟨g', h⟩ hkind hpath
    cases h with
    | nothing hnone => simp [hkind, hpath] at hnone
    | param _ _ htype => rw [htype]; rfl
    | typedef hother | enum hother => cases hkind.symm.trans hother
  · intro h
    cases hpath : row.path with
    | nil => exact ⟨g, .nothing (Or.inr hpath)⟩
    | cons name rest =>
        cases hkind : row.kind with
        | param =>
            obtain ⟨type, htype⟩ :=
              Option.isSome_iff_exists.mp (h hkind (hpath ▸ List.cons_ne_nil _ _))
            exact ⟨_, .param hkind hpath htype⟩
        | typedef => exact ⟨_, .typedef hkind hpath⟩
        | enum => exact ⟨_, .enum hkind hpath⟩
        | field => exact ⟨g, .nothing (Or.inl hkind)⟩

variable {declared : TypeGraph} {placed : List Placement} {state' : TypeGraph × List Placement}

theorem node?_withField (g : TypeGraph) (owner name : String) (row : Row) (type : TypeExpr)
    (key : String) :
    (g.withField owner name row type).node? key =
      (Saying.about key (.mention owner :: type.mentions)).foldl Saying.apply (g.node? key) := by
  rw [withField_eq, withMember, node?_mention, Saying.about_cons, Saying.key_mention,
    node?_updateMember_field, node?_ensureField, node?_ensureNode]
  by_cases hkey : keyOf owner = key
  · subst hkey
    rw [if_pos rfl, if_pos rfl, List.foldl_cons]
    cases g.node? (keyOf owner) <;> rfl
  · rw [if_neg (Ne.symm hkey), if_neg hkey, Option.or_none]

theorem field?_withField (g : TypeGraph) (owner name : String) (row : Row) (type : TypeExpr)
    (other otherName : String) :
    (g.withField owner name row type).field? other otherName =
      if other = keyOf owner ∧ otherName = name then
        some ⟨other, otherName, rowMember row type
          (((g.field? other otherName).map (·.member)).getD .blank)⟩
      else g.field? other otherName := by
  rw [withField_eq, withMember, field?_mention, field?_updateMember_field, field?_ensureField,
    field?_ensureNode]
  by_cases hat : other = keyOf owner ∧ otherName = name
  · rw [if_pos hat, if_pos hat, if_pos hat]
    cases hfield : g.field? other otherName with
    | none =>
        rw [Option.none_or, ← hat.1, ← hat.2]
        rfl
    | some field =>
        obtain ⟨-, rfl, rfl⟩ := field?_eq_some hfield
        rfl
  · rw [if_neg hat, if_neg hat, if_neg hat, Option.or_none]

theorem node?_place (h : place declared (g, placed) row = .ok state') (key : String) :
    state'.1.node? key =
      (Saying.about key (row.places (fieldParent declared g))).foldl Saying.apply
        (g.node? key) := by
  unfold Row.places
  cases place_eq_ok_iff.mp h with
  | nothing hpath =>
      rw [hpath]
      rfl
  | @field parent name type hpath htype =>
      rw [hpath, htype]
      exact node?_withField g _ name row type key

theorem field?_place (h : place declared (g, placed) row = .ok state') (owner name : String) :
    state'.1.field? owner name =
      if row.slot? (fieldParent declared g) = some (.field owner name) then
        row.fill owner name (g.field? owner name)
      else g.field? owner name := by
  unfold Row.slot?
  cases place_eq_ok_iff.mp h with
  | nothing hpath =>
      rw [hpath]
      rfl
  | field hpath htype =>
      simp only [hpath, field?_withField, Option.map_some, Option.some.injEq, Slot.field.injEq,
        Row.fill, htype, eq_comm (b := owner), eq_comm (b := name)]

theorem exists_place_iff (declared : TypeGraph) (state : TypeGraph × List Placement) (row : Row) :
    (∃ state', place declared state row = .ok state') ↔
      (row.fieldPath?.isSome = true → row.type?.isSome = true) := by
  obtain ⟨g, placed⟩ := state
  simp only [place_eq_ok_iff]
  constructor
  · rintro ⟨_, h⟩ hfield
    cases h with
    | nothing hpath => rw [hpath] at hfield; cases hfield
    | field _ htype => rw [htype]; rfl
  · intro h
    cases hpath : row.fieldPath? with
    | none => exact ⟨_, .nothing hpath⟩
    | some path =>
        obtain ⟨type, htype⟩ := Option.isSome_iff_exists.mp (h (hpath ▸ rfl))
        exact ⟨_, .field hpath htype⟩

/-! ## All rows -/

theorem isDeclared_eq (g : TypeGraph) (key : String) :
    g.isDeclared key = (g.node? key).any fun node => node.isTypedef || node.enum?.isSome := by
  unfold isDeclared
  cases g.node? key <;> rfl

theorem alias?_eq_some_iff {key base : String} :
    g.alias? key = some base ↔ ∃ node type, g.node? key = some node ∧ node.isParam = true ∧
      node.member.type? = some type ∧ Builtin.isName type.base = false ∧ keyOf type.base ≠ key ∧
        type.base = base := by
  unfold alias?
  cases g.node? key with
  | none => simp
  | some node =>
      cases hparam : node.isParam with
      | false => simp [hparam]
      | true =>
          cases htype : node.member.type? with
          | none => simp [htype]
          | some type => simp [hparam, htype, and_assoc]

/-- Placing fields declares nothing, -/
theorem isDeclared_place (h : place declared (g, placed) row = .ok state') (key : String) :
    state'.1.isDeclared key = g.isDeclared key := by
  have hmentions : ∀ s ∈ Saying.about key (row.places (fieldParent declared g)),
      s = .mention s.name :=
    fun s hs => Row.eq_mention_of_mem_places (Saying.mem_about.mp hs).1
  rw [isDeclared_eq, isDeclared_eq, node?_place h, Saying.foldl_apply_of_mentions hmentions]
  cases g.node? key with
  | some node => rfl
  | none =>
      rw [Option.none_or]
      cases (Saying.about key (row.places (fieldParent declared g))).head? <;> rfl

/-- and so leaves the parents of other fields. -/
theorem fieldParent_place (h : place declared (g, placed) row = .ok state') :
    fieldParent declared state'.1 = fieldParent declared g := by
  funext parent
  rw [fieldParent, fieldParent, isDeclared_place h]

theorem build_eq_ok_iff :
    build rows = .ok g ↔ ∃ declared g₂ placed, rows.foldlM declare .empty = .ok declared ∧
      rows.foldlM (place declared) (declared, []) = .ok (g₂, placed) ∧
        g = { g₂ with diagnostics := g₂.unreferencedFields placed } := by
  constructor
  · intro hg
    obtain ⟨declared, hdeclared, hrest⟩ := bind_eq_ok_iff.mp hg
    obtain ⟨⟨g₂, placed⟩, hplaced, hdiagnosed⟩ := bind_eq_ok_iff.mp hrest
    rw [pure_eq_ok_iff] at hdiagnosed
    exact ⟨declared, g₂, placed, hdeclared, hplaced, hdiagnosed.symm⟩
  · rintro ⟨declared, g₂, placed, hdeclared, hplaced, rfl⟩
    exact bind_eq_ok_iff.mpr ⟨declared, hdeclared, bind_eq_ok_iff.mpr ⟨_, hplaced, rfl⟩⟩

theorem node?_foldlM_declare (h : rows.foldlM declare g = .ok g') (key : String) :
    g'.node? key =
      (Saying.about key (rows.flatMap Row.declares)).foldl Saying.apply (g.node? key) := by
  rw [Saying.about_flatMap, List.foldl_flatMap]
  exact foldlM_view (fun g => g.node? key)
    (fun node? row => (Saying.about key row.declares).foldl Saying.apply node?)
    (motive := fun _ => True) (fun _ hstep => ⟨trivial, node?_declare hstep key⟩) trivial h

section

variable {state : TypeGraph × List Placement}

/-- While fields are placed, the parents of fields are those that the declarations give them. -/
theorem node?_foldlM_place (h : rows.foldlM (place declared) state = .ok state') (key : String) :
    state'.1.node? key =
      (Saying.about key (rows.flatMap (Row.places (fieldParent declared state.1)))).foldl
        Saying.apply (state.1.node? key) := by
  rw [Saying.about_flatMap, List.foldl_flatMap]
  refine foldlM_view (fun s : TypeGraph × List Placement => s.1.node? key) _
    (motive := fun s : TypeGraph × List Placement =>
      fieldParent declared s.1 = fieldParent declared state.1) ?_ rfl h
  intro s row s' hparent hstep
  have hnode := node?_place hstep key
  rw [hparent] at hnode
  exact ⟨(fieldParent_place hstep).trans hparent, hnode⟩

theorem field?_foldlM_place (h : rows.foldlM (place declared) state = .ok state')
    (owner name : String) :
    state'.1.field? owner name =
      rows.foldl (fun field? row =>
        if row.slot? (fieldParent declared state.1) = some (.field owner name) then
          row.fill owner name field?
        else field?) (state.1.field? owner name) := by
  refine foldlM_view (fun s : TypeGraph × List Placement => s.1.field? owner name) _
    (motive := fun s : TypeGraph × List Placement =>
      fieldParent declared s.1 = fieldParent declared state.1) ?_ rfl h
  intro s row s' hparent hstep
  have hfield := field?_place hstep owner name
  rw [hparent] at hfield
  exact ⟨(fieldParent_place hstep).trans hparent, hfield⟩

end

/-! ## Built graphs -/

/-- The name of the node that fields of a parent belong to. -/
def ownerOf (g : TypeGraph) : String → String := fieldParent g g

/-- What rows say, that of declarations before that of fields. -/
def sayings (owner : String → String) (rows : List Row) : List Saying :=
  rows.flatMap Row.declares ++ rows.flatMap (Row.places owner)

theorem isDeclared_foldlM_place {state : TypeGraph × List Placement}
    (h : rows.foldlM (place declared) state = .ok state') :
    state'.1.isDeclared = state.1.isDeclared :=
  foldlM_induction
    (motive := fun s : TypeGraph × List Placement => s.1.isDeclared = state.1.isDeclared)
    (fun hs hstep => (funext (isDeclared_place hstep)).trans hs) rfl h

/-- Fields make no parameters and change none. -/
theorem alias?_foldlM_place {state : TypeGraph × List Placement}
    (h : rows.foldlM (place declared) state = .ok state') : state'.1.alias? = state.1.alias? := by
  funext key
  have hmentions : ∀ s ∈ Saying.about key
      (rows.flatMap (Row.places (fieldParent declared state.1))), s = .mention s.name := by
    intro s hs
    obtain ⟨row, -, hrow⟩ := List.mem_flatMap.mp (Saying.mem_about.mp hs).1
    exact Row.eq_mention_of_mem_places hrow
  unfold alias?
  rw [node?_foldlM_place h, Saying.foldl_apply_of_mentions hmentions]
  cases state.1.node? key with
  | some node => rfl
  | none =>
      rw [Option.none_or]
      cases (Saying.about key
        (rows.flatMap (Row.places (fieldParent declared state.1)))).head? <;> rfl

/-- Rows build a graph in two passes, of which the second places each field below the node that
also the built graph gives its parent. -/
theorem exists_passes_of_build (hg : build rows = .ok g) :
    ∃ declared g₂ placed, rows.foldlM declare .empty = .ok declared ∧
      rows.foldlM (place declared) (declared, []) = .ok (g₂, placed) ∧
        g = { g₂ with diagnostics := g₂.unreferencedFields placed } ∧
          fieldParent declared declared = g.ownerOf := by
  obtain ⟨declared, g₂, placed, hdeclared, hplaced, rfl⟩ := build_eq_ok_iff.mp hg
  refine ⟨declared, g₂, placed, hdeclared, hplaced, rfl, ?_⟩
  funext parent
  have hisDeclared : g₂.isDeclared = declared.isDeclared := isDeclared_foldlM_place hplaced
  have halias : g₂.alias? = declared.alias? := alias?_foldlM_place hplaced
  change _ = fieldParent g₂ g₂ parent
  rw [fieldParent, fieldParent, hisDeclared, halias]

/-- A node is what the rows say about its name. -/
theorem node?_build (hg : build rows = .ok g) (key : String) :
    g.node? key = Saying.summary (Saying.about key (sayings g.ownerOf rows)) := by
  obtain ⟨declared, g₂, placed, hdeclared, hplaced, hfinal, howner⟩ := exists_passes_of_build hg
  have hfirst := node?_foldlM_declare hdeclared key
  have hsecond := node?_foldlM_place hplaced key
  have hsame : g.node? key = g₂.node? key := by rw [hfinal]; rfl
  rw [howner, hfirst] at hsecond
  rw [hsame, sayings, Saying.about_append, Saying.summary_append]
  exact hsecond

/-- A field is what the rows for its slot say. -/
theorem field?_build (hg : build rows = .ok g) (owner name : String) :
    g.field? owner name =
      (rows.filter fun row => row.slot? g.ownerOf = some (.field owner name)).foldl
        (Row.fill owner name) none := by
  obtain ⟨declared, g₂, placed, hdeclared, hplaced, hfinal, howner⟩ := exists_passes_of_build hg
  have hsecond := field?_foldlM_place hplaced owner name
  have hnone : declared.field? owner name = none := by
    have hfields : declared.fields = [] := foldlM_induction (motive := fun g => g.fields = [])
      (fun h hstep => (fields_declare hstep).trans h) rfl hdeclared
    rw [field?, hfields]
    rfl
  have hsame : g.field? owner name = g₂.field? owner name := by rw [hfinal]; rfl
  rw [howner, hnone] at hsecond
  rw [hsame, List.foldl_filter]
  simpa only [decide_eq_true_eq] using hsecond

/-- Rows build a graph if the type of each row for a parameter or field can be read. -/
theorem exists_build_iff :
    (∃ g, build rows = .ok g) ↔
      ∀ row ∈ rows, row.kind = .param ∧ row.path ≠ [] ∨ row.fieldPath?.isSome = true →
        row.type?.isSome = true := by
  have hfirst := exists_foldlM_iff (fun g row => exists_declare_iff g row) rows empty
  have hsecond := fun declared state =>
    exists_foldlM_iff (fun s row => exists_place_iff declared s row) rows state
  constructor
  · rintro ⟨g, hg⟩ row hrow (hparam | hfield)
    · obtain ⟨declared, -, -, hdeclared, -⟩ := build_eq_ok_iff.mp hg
      exact hfirst.mp ⟨declared, hdeclared⟩ row hrow hparam.1 hparam.2
    · obtain ⟨declared, g₂, placed, -, hplaced, -⟩ := build_eq_ok_iff.mp hg
      exact (hsecond declared _).mp ⟨_, hplaced⟩ row hrow hfield
  · intro h
    obtain ⟨declared, hdeclared⟩ := hfirst.mpr fun row hrow hkind hpath =>
      h row hrow (Or.inl ⟨hkind, hpath⟩)
    obtain ⟨⟨g₂, placed⟩, hplaced⟩ := (hsecond declared (declared, [])).mpr fun row hrow hfield =>
      h row hrow (Or.inr hfield)
    exact ⟨_, build_eq_ok_iff.mpr ⟨declared, g₂, placed, hdeclared, hplaced, rfl⟩⟩

/-- A row for a field makes one at its slot. -/
theorem exists_field?_of_slot? (hg : build rows = .ok g) (hrow : row ∈ rows) {owner name : String}
    (hslot : row.slot? g.ownerOf = some (.field owner name)) :
    ∃ field, g.field? owner name = some field := by
  have hmem : row ∈ rows.filter fun row => row.slot? g.ownerOf = some (.field owner name) :=
    List.mem_filter.mpr ⟨hrow, decide_eq_true hslot⟩
  have htyped : ∀ other ∈ rows.filter fun row => row.slot? g.ownerOf = some (.field owner name),
      other.type?.isSome = true := by
    intro other hother
    obtain ⟨hin, hat⟩ := List.mem_filter.mp hother
    exact exists_build_iff.mp ⟨g, hg⟩ other hin
      (Or.inr (Row.isSome_fieldPath?_of_slot? (of_decide_eq_true hat)))
  rw [← Option.isSome_iff_exists, field?_build hg]
  exact Row.isSome_foldl_fill (List.ne_nil_of_mem hmem) htyped owner name

end TypeGraph

end AnnotatedValues
