import AnnotatedValues.Proofs.Graph.Lookup

/-!
# Graphs with other members

A change of all members leaves the keys, the names and the order of nodes and
fields, and with a member its type the structs that objects hold.  A change of
one member is not seen where all are changed so that it makes no difference.
-/

namespace AnnotatedValues

def Node.mapMember (h : Member → Member) (n : Node) : Node := { n with member := h n.member }

def Field.mapMember (h : Member → Member) (f : Field) : Field := { f with member := h f.member }

namespace TypeGraph

/-- The types of the members that have one. -/
def memberTypes (g : TypeGraph) : List TypeExpr := g.members.filterMap (·.type?)

/-- The graph with all members changed. -/
def mapMembers (h : Member → Member) (g : TypeGraph) : TypeGraph :=
  { g with
    nodes := g.nodes.map fun e => (e.1, e.2.mapMember h)
    fields := g.fields.map (Field.mapMember h) }

variable (h : Member → Member) (g : TypeGraph)

/-! ## Look-ups -/

theorem node?_mapMembers (key : String) :
    (g.mapMembers h).node? key = (g.node? key).map (Node.mapMember h) := by
  obtain ⟨nodes, fields, params, diagnostics⟩ := g
  induction nodes with
  | nil => rfl
  | cons entry nodes ih =>
      change List.lookup key ((entry.1, entry.2.mapMember h) :: nodes.map _) =
        (List.lookup key ((entry.1, entry.2) :: nodes)).map (Node.mapMember h)
      rw [List.lookup_cons, List.lookup_cons]
      cases key == entry.1 with
      | true => rfl
      | false => exact ih

theorem field?_mapMembers (owner name : String) :
    (g.mapMembers h).field? owner name = (g.field? owner name).map (Field.mapMember h) := by
  change (g.fields.map (Field.mapMember h)).find? _ = _
  rw [List.find?_map]
  rfl

theorem isSome_field?_mapMembers (owner name : String) :
    ((g.mapMembers h).field? owner name).isSome = (g.field? owner name).isSome := by
  rw [field?_mapMembers, Option.isSome_map]

theorem member?_mapMembers (slot : Slot) :
    (g.mapMembers h).member? slot = (g.member? slot).map h := by
  cases slot with
  | node key =>
      simp only [member?, node?_mapMembers, Option.map_map]
      rfl
  | field owner name =>
      simp only [member?, field?_mapMembers, Option.map_map]
      rfl

theorem nameOf_mapMembers : (g.mapMembers h).nameOf = g.nameOf := by
  funext key
  rw [nameOf, nameOf, node?_mapMembers, Option.map_map]
  rfl

theorem lookup?_mapMembers : (g.mapMembers h).lookup? = g.lookup? := by
  funext name
  rw [lookup?, lookup?, node?_mapMembers, Option.isSome_map]

theorem param?_mapMembers : (g.mapMembers h).param? = g.param? := by
  funext name
  unfold param?
  rw [node?_mapMembers]
  cases g.node? (keyOf name) <;> rfl

theorem slotOf?_mapMembers : (g.mapMembers h).slotOf? = g.slotOf? := by
  funext owner key
  cases owner with
  | none => rw [slotOf?, slotOf?, param?_mapMembers]
  | some owner => rw [slotOf?, slotOf?, isSome_field?_mapMembers]

theorem hasFields_mapMembers : (g.mapMembers h).hasFields = g.hasFields := by
  funext key
  exact List.any_map

/-! ## Lists -/

theorem length_nodes_mapMembers : (g.mapMembers h).nodes.length = g.nodes.length :=
  List.length_map _

theorem types_mapMembers :
    (g.mapMembers h).types = g.types.map fun e => (e.1, e.2.mapMember h) :=
  Eq.symm (List.map_mergeSort (f := fun e : String × Node => (e.1, e.2.mapMember h))
    fun _ _ _ _ => rfl)

theorem fieldsOf_mapMembers (key : String) :
    (g.mapMembers h).fieldsOf key = (g.fieldsOf key).map (Field.mapMember h) := by
  have hfilter : (g.mapMembers h).fields.filter (fun f => f.owner == key) =
      (g.fields.filter fun f => f.owner == key).map (Field.mapMember h) := List.filter_map
  rw [fieldsOf, hfilter]
  exact Eq.symm (List.map_mergeSort (f := Field.mapMember h) fun _ _ _ _ => rfl)

/-! ## Types of members -/

section

variable {h} (htype : ∀ m, (h m).type? = m.type?)

include htype

theorem type?_mapMembers (slot : Slot) :
    ((g.mapMembers h).member? slot).bind (·.type?) = (g.member? slot).bind (·.type?) := by
  rw [member?_mapMembers, Option.bind_map]
  exact Option.bind_congr fun m _ => htype m

theorem structAt?_mapMembers : (g.mapMembers h).structAt? = g.structAt? := by
  have hstruct : ∀ slot, ((g.mapMembers h).member? slot).bind (g.mapMembers h).structOf? =
      (g.member? slot).bind g.structOf? := by
    intro slot
    rw [member?_mapMembers, Option.bind_map]
    refine Option.bind_congr fun m _ => ?_
    rw [Function.comp_apply, structOf?, structOf?, htype, lookup?_mapMembers, hasFields_mapMembers]
  funext slot
  cases slot with
  | node key => rw [structAt?, structAt?, hasFields_mapMembers, hstruct]
  | field owner name => rw [structAt?, structAt?, hstruct]

theorem memberTypes_mapMembers : (g.mapMembers h).memberTypes = g.memberTypes := by
  have hmembers : (g.mapMembers h).members = g.members.map h := by
    rw [members, members, List.map_append, List.map_map, List.map_map]
    exact congrArg₂ (· ++ ·) List.map_map List.map_map
  rw [memberTypes, hmembers, List.filterMap_map]
  exact congrArg (List.filterMap · g.members) (funext htype)

end

/-! ## A change that is not seen -/

theorem map_modifyNode {f : Node → Node} (h : Node → Node) (hf : ∀ n, h (f n) = h n)
    (key : String) (nodes : List (String × Node)) :
    ((modifyNode f key nodes).map fun e => (e.1, h e.2)) = nodes.map fun e => (e.1, h e.2) := by
  rw [modifyNode_eq]
  exact map_modifyFirst fun e => by rw [hf]

theorem map_modifyField {f : Field → Field} (h : Field → Field) (hf : ∀ x, h (f x) = h x)
    (owner name : String) (fields : List Field) :
    (modifyField f owner name fields).map h = fields.map h := by
  rw [modifyField_eq]
  exact map_modifyFirst hf

theorem mapMembers_updateMember (slot : Slot) {f : Member → Member} (hf : ∀ m, h (f m) = h m) :
    (g.updateMember slot f).mapMembers h = g.mapMembers h := by
  cases slot with
  | node key =>
      have hnodes := map_modifyNode (f := fun n => { n with member := f n.member })
        (Node.mapMember h) (fun n => by simp only [Node.mapMember, hf]) key g.nodes
      simp only [mapMembers, updateMember, updateNode, hnodes]
  | field owner name =>
      have hfields := map_modifyField (f := fun x => { x with member := f x.member })
        (Field.mapMember h) (fun x => by simp only [Field.mapMember, hf]) owner name g.fields
      simp only [mapMembers, updateMember, hfields]

end TypeGraph

end AnnotatedValues
