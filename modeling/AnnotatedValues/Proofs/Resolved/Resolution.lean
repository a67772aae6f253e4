import AnnotatedValues.Proofs.Fallible
import AnnotatedValues.Proofs.Resolved.Identifiers

/-!
# What names resolve to

A resolved type is the leaf that its name denotes inside the pointers, arrays
and maps of its expression.  The leaf is a struct or an enumeration of the graph
exactly when the name says so; and if no name is undefined, the type of every
parameter and field resolves.
-/

namespace AnnotatedValues

open Fallible

/-! ## Leaves -/

namespace Resolved

/-- The type inside all pointers, arrays and maps. -/
def leaf : Resolved → Resolved
  | .pointer inner | .array inner | .map inner => inner.leaf
  | other => other

theorem innermost?_eq_leaf (t : Resolved) : t.innermost? = t.leaf.struct? := by
  induction t with
  | pointer inner ih => exact ih
  | array inner ih => exact ih
  | map inner ih => exact ih
  | primitive p => rfl
  | format name => rfl
  | semantic s => rfl
  | enum ref => rfl
  | struct ref => rfl

theorem eq_struct_of_struct? {t : Resolved} {ref : StructRef} (h : t.struct? = some ref) :
    t = .struct ref := by
  cases t <;> cases h
  rfl

theorem innermost?_stripPointer (t : Resolved) : t.stripPointer.innermost? = t.innermost? := by
  cases t <;> rfl

/-- A struct that is the type, up to a pointer, is the innermost one. -/
theorem innermost?_of_struct?_stripPointer {t : Resolved} {ref : StructRef}
    (h : t.stripPointer.struct? = some ref) : t.innermost? = some ref := by
  rw [← innermost?_stripPointer, eq_struct_of_struct? h]
  rfl

/-- The key and the identifier of the struct or enumeration inside all pointers, arrays and
maps. -/
def user? (t : Resolved) : Option (String × String) :=
  match t.leaf with
  | .enum ref => some (ref.key, ref.ident)
  | .struct ref => some (ref.key, ref.ident)
  | _ => none

end Resolved

/-- The values of the enumeration that a node declares; none if it declares no enumeration. -/
def Node.values (node : Node) : List String := (node.enum?.map (·.values)).getD []

namespace Resolver

variable {r : Resolver}

theorem builtin?_eq_none_iff {name : String} :
    builtin? name = none ↔ Builtin.isName name = false := by
  unfold builtin? Builtin.isName
  cases Primitive.ofName? name with
  | some p => simp
  | none =>
      cases Builtin.isFormat name with
      | true => simp
      | false => simp

theorem isBuiltin_of_builtin? {name : String} {t : Resolved} (h : builtin? name = some t) :
    t.isBuiltin = true := by
  unfold builtin? at h
  split at h
  · exact Option.some.inj h ▸ rfl
  · split at h
    · exact Option.some.inj h ▸ rfl
    · obtain ⟨s, -, rfl⟩ := Option.map_eq_some_iff.mp h
      rfl

theorem isName_of_builtin? {name : String} {t : Resolved} (h : builtin? name = some t) :
    Builtin.isName name = true := by
  cases hname : Builtin.isName name with
  | true => rfl
  | false =>
      rw [builtin?_eq_none_iff.mpr hname] at h
      cases h

theorem enumRef?_eq_some {key : String} {ref : EnumRef} (h : r.enumRef? key = some ref) :
    ∃ node decl, r.graph.node? key = some node ∧ node.enum? = some decl ∧
      decl.values.isEmpty = false ∧ ref.key = key ∧ ref.ident = r.ident key := by
  unfold enumRef? at h
  split at h
  · rename_i decl hdecl
    obtain ⟨node, hnode, henum⟩ := Option.bind_eq_some_iff.mp hdecl
    split at h
    · cases h
    · rename_i hvalues
      have href := Option.some.inj h
      subst href
      exact ⟨node, decl, hnode, henum, by simpa using hvalues, rfl, rfl⟩
  · cases h

theorem key_of_enumRef? {key : String} {ref : EnumRef} (h : r.enumRef? key = some ref) :
    ref.key = key := by
  obtain ⟨_, _, -, -, -, hkey, -⟩ := enumRef?_eq_some h
  exact hkey

theorem enumRef?_eq_none_iff {key : String} {node : Node} (hnode : r.graph.node? key = some node) :
    r.enumRef? key = none ↔ ∀ decl, node.enum? = some decl → decl.values.isEmpty = true := by
  unfold enumRef?
  rw [hnode, Option.bind_some]
  cases node.enum? with
  | none => simp
  | some decl => simp

theorem enumRef?_eq_none_iff_values {key : String} {node : Node}
    (hnode : r.graph.node? key = some node) : r.enumRef? key = none ↔ node.values = [] := by
  rw [enumRef?_eq_none_iff hnode, Node.values]
  cases node.enum? with
  | none => simp
  | some decl => simp

theorem exists_enumRef?_iff {key : String} {node : Node} (hnode : r.graph.node? key = some node) :
    (∃ ref, r.enumRef? key = some ref) ↔
      ∃ decl, node.enum? = some decl ∧ decl.values.isEmpty = false := by
  rw [← Option.isSome_iff_exists, ← Option.ne_none_iff_isSome, Ne, enumRef?_eq_none_iff hnode]
  simp

/-- In a well-formed graph a name needs no look-up: whatever has fields or values has a node. -/
theorem resolveName_eq (hg : r.graph.WellFormed) (name : String) :
    r.resolveName name =
      match builtin? name with
      | some t => .ok t
      | none =>
        if Builtin.isContextual name then
          if r.graph.hasFields (keyOf name) then .ok (.struct (r.structRef (keyOf name)))
          else .ok (.semantic .object)
        else
          match r.enumRef? (keyOf name) with
          | some ref => .ok (.enum ref)
          | none =>
            if r.graph.hasFields (keyOf name) then .ok (.struct (r.structRef (keyOf name)))
            else .error ⟨name⟩ := by
  unfold resolveName
  cases builtin? name with
  | some t => rfl
  | none =>
      dsimp only
      cases hknown : (r.graph.node? (keyOf name)).isSome with
      | true =>
          have hlookup : r.graph.lookup? name = some (keyOf name) := by
            rw [TypeGraph.lookup?, if_pos hknown]
          unfold contextual declared?
          rw [hlookup]
          cases henum : r.enumRef? (keyOf name) <;>
            cases hfields : r.graph.hasFields (keyOf name) <;>
              simp [Option.filter_some, hfields, henum]
      | false =>
          have hlookup : r.graph.lookup? name = none := by
            rw [TypeGraph.lookup?, hknown]
            rfl
          have hfields : r.graph.hasFields (keyOf name) = false := by
            rw [Bool.eq_false_iff]
            intro h
            obtain ⟨field, _, hfield⟩ := TypeGraph.hasFields_iff.mp h
            rw [hg.owner_known hfield] at hknown
            cases hknown
          have henum : r.enumRef? (keyOf name) = none := by
            cases henum : r.enumRef? (keyOf name) with
            | none => rfl
            | some ref =>
                obtain ⟨node, _, hnode, -⟩ := enumRef?_eq_some henum
                rw [hnode] at hknown
                cases hknown
          simp [contextual, declared?, hlookup, hfields, henum]

/-- A name denotes a struct if it is not built in and its node has fields; values make the node an
enumeration instead, unless the name is one of a kind of resources. -/
theorem resolveName_eq_struct_iff (hg : r.graph.WellFormed) {name : String} {ref : StructRef} :
    r.resolveName name = .ok (.struct ref) ↔
      Builtin.isName name = false ∧ r.graph.hasFields (keyOf name) = true ∧
        (Builtin.isContextual name = true ∨ r.enumRef? (keyOf name) = none) ∧
        ref = r.structRef (keyOf name) := by
  rw [resolveName_eq hg]
  cases hbuiltin : builtin? name with
  | some t =>
      have ht := isBuiltin_of_builtin? hbuiltin
      have hname := isName_of_builtin? hbuiltin
      cases t <;> simp [hname, Resolved.isBuiltin] at ht ⊢
  | none =>
      have hname := builtin?_eq_none_iff.mp hbuiltin
      cases Builtin.isContextual name <;> cases r.graph.hasFields (keyOf name) <;>
        cases r.enumRef? (keyOf name) <;> simp [hname, eq_comm]

/-- A name denotes an enumeration if its node has values and it is neither built in nor one of a
kind of resources. -/
theorem resolveName_eq_enum_iff (hg : r.graph.WellFormed) {name : String} {ref : EnumRef} :
    r.resolveName name = .ok (.enum ref) ↔
      Builtin.isName name = false ∧ Builtin.isContextual name = false ∧
        r.enumRef? (keyOf name) = some ref := by
  rw [resolveName_eq hg]
  cases hbuiltin : builtin? name with
  | some t =>
      have ht := isBuiltin_of_builtin? hbuiltin
      have hname := isName_of_builtin? hbuiltin
      cases t <;> simp [hname, Resolved.isBuiltin] at ht ⊢
  | none =>
      have hname := builtin?_eq_none_iff.mp hbuiltin
      cases Builtin.isContextual name <;> cases r.graph.hasFields (keyOf name) <;>
        cases r.enumRef? (keyOf name) <;> simp [hname]

/-! ## Expressions -/

theorem leaf_of_resolveName (hg : r.graph.WellFormed) {name : String} {t : Resolved}
    (h : r.resolveName name = .ok t) : t.leaf = t ∧ t.pointee = t := by
  rw [resolveName_eq hg] at h
  split at h
  · rename_i hbuiltin
    have ht := isBuiltin_of_builtin? hbuiltin
    cases h
    cases t <;> first | exact ⟨rfl, rfl⟩ | cases ht
  · split at h
    · split at h <;> (cases h; exact ⟨rfl, rfl⟩)
    · split at h
      · cases h
        exact ⟨rfl, rfl⟩
      · split at h <;> cases h
        exact ⟨rfl, rfl⟩

/-- An expression resolves to what its name denotes inside its wrappers, -/
theorem resolveName_of_resolve (hg : r.graph.WellFormed) {type : TypeExpr} {t : Resolved}
    (h : r.resolve type = .ok t) : r.resolveName type.base = .ok t.leaf := by
  induction type generalizing t with
  | pointer inner ih =>
      obtain ⟨_, hinner, rfl⟩ := map_eq_ok_iff.mp h
      have hbelow := ih hinner
      exact hbelow
  | array inner ih =>
      obtain ⟨_, hinner, rfl⟩ := map_eq_ok_iff.mp h
      have hbelow := ih hinner
      exact hbelow
  | map inner ih =>
      obtain ⟨_, hinner, rfl⟩ := map_eq_ok_iff.mp h
      have hbelow := ih hinner
      exact hbelow
  | named name =>
      rw [(leaf_of_resolveName hg h).1]
      exact h

/-- and resolves whenever its name does. -/
theorem exists_resolve_of_resolveName {type : TypeExpr} {t : Resolved}
    (h : r.resolveName type.base = .ok t) : ∃ t', r.resolve type = .ok t' := by
  induction type with
  | pointer inner ih | array inner ih | map inner ih =>
      obtain ⟨t', ht'⟩ := ih h
      exact ⟨_, map_eq_ok_iff.mpr ⟨t', ht', rfl⟩⟩
  | named name => exact ⟨t, h⟩

theorem resolve_pointee (hg : r.graph.WellFormed) {type : TypeExpr} {t : Resolved}
    (h : r.resolve type = .ok t) : r.resolve type.pointee = .ok t.pointee := by
  induction type generalizing t with
  | pointer inner ih =>
      obtain ⟨_, hinner, rfl⟩ := map_eq_ok_iff.mp h
      have hbelow := ih hinner
      exact hbelow
  | array inner _ =>
      obtain ⟨_, -, rfl⟩ := map_eq_ok_iff.mp h
      exact h
  | map inner _ =>
      obtain ⟨_, -, rfl⟩ := map_eq_ok_iff.mp h
      exact h
  | named name =>
      rw [(leaf_of_resolveName hg h).2]
      exact h

/-! ## Slots -/

/-- A slot has the type of its annotation, or is a node that is itself the struct. -/
theorem resolveSlot_cases {slot : Slot} {t : Resolved} (h : r.resolveSlot slot = .ok t) :
    (∃ type, (r.graph.member? slot).bind (·.type?) = some type ∧ r.resolve type = .ok t) ∨
      ∃ key, r.graph.hasFields key = true ∧ t = .struct (r.structRef key) := by
  unfold resolveSlot at h
  split at h
  · rename_i type htype
    exact Or.inl ⟨type, htype, h⟩
  · cases slot with
    | node key =>
        dsimp only at h
        split at h
        · rename_i hfields
          exact Or.inr ⟨key, hfields, (Except.ok.inj h).symm⟩
        · cases h
    | field owner name => cases h

theorem isType_of_hasFields (hg : r.graph.WellFormed) {key : String}
    (h : r.graph.hasFields key = true) : r.IsType key := by
  obtain ⟨name, field, hfield⟩ := TypeGraph.hasFields_iff.mp h
  obtain ⟨node, hnode⟩ := Option.isSome_iff_exists.mp (hg.owner_known hfield)
  exact ⟨node, TypeGraph.mem_nodes_of_node? hnode, by simp [Identifier.isNamedType, h]⟩

/-- The struct or enumeration that an expression refers to is a type of the graph, under its own
identifier, -/
theorem isType_of_resolve (hg : r.graph.WellFormed) {type : TypeExpr} {t : Resolved}
    {key ident : String} (h : r.resolve type = .ok t) (huser : t.user? = some (key, ident)) :
    ident = r.ident key ∧ r.IsType key := by
  have hname := resolveName_of_resolve hg h
  unfold Resolved.user? at huser
  split at huser
  · rename_i ref hleaf
    cases huser
    rw [hleaf, resolveName_eq_enum_iff hg] at hname
    obtain ⟨node, decl, hnode, henum, -, hkey, hident⟩ := enumRef?_eq_some hname.2.2
    rw [hkey]
    refine ⟨hident, node, TypeGraph.mem_nodes_of_node? hnode, ?_⟩
    simp [Identifier.isNamedType, henum]
  · rename_i ref hleaf
    cases huser
    rw [hleaf, resolveName_eq_struct_iff hg] at hname
    obtain ⟨-, hfields, -, rfl⟩ := hname
    exact ⟨rfl, isType_of_hasFields hg hfields⟩
  · cases huser

/-- and so is the one in the type of a slot. -/
theorem isType_of_user? (hg : r.graph.WellFormed) {slot : Slot} {t : Resolved} {key ident : String}
    (h : r.resolveSlot slot = .ok t) (huser : t.user? = some (key, ident)) :
    ident = r.ident key ∧ r.IsType key := by
  rcases resolveSlot_cases h with ⟨type, -, htype⟩ | ⟨key', hfields, rfl⟩
  · exact isType_of_resolve hg htype huser
  · cases huser
    exact ⟨rfl, isType_of_hasFields hg hfields⟩

/-- A node without an enumeration is referred to as a struct. -/
theorem innermost?_of_user? (hg : r.graph.WellFormed) {slot : Slot} {t : Resolved}
    {key ident : String} (h : r.resolveSlot slot = .ok t) (huser : t.user? = some (key, ident))
    {node : Node} (hnode : r.graph.node? key = some node) (henum : node.enum? = none) :
    t.innermost? = some ⟨key, ident⟩ := by
  rw [Resolved.innermost?_eq_leaf]
  unfold Resolved.user? at huser
  split at huser
  · rename_i ref hleaf
    cases huser
    rcases resolveSlot_cases h with ⟨type, -, htype⟩ | ⟨_, -, rfl⟩
    · have hname := resolveName_of_resolve hg htype
      rw [hleaf, resolveName_eq_enum_iff hg] at hname
      obtain ⟨node', decl, hnode', hdecl, -, hkey, -⟩ := enumRef?_eq_some hname.2.2
      rw [← hkey, hnode] at hnode'
      cases hnode'
      rw [henum] at hdecl
      cases hdecl
    · cases hleaf
  · rename_i ref hleaf
    cases huser
    rw [hleaf]
    rfl
  · cases huser

/-! ## The sweep for undefined names -/

theorem unresolvedNames_eq_nil_iff {types : List TypeExpr} :
    r.unresolvedNames types [] = [] ↔ ∀ type ∈ types, ∃ t, r.resolve type = .ok t := by
  induction types with
  | nil => simp [unresolvedNames]
  | cons type types ih =>
      rw [unresolvedNames, List.forall_mem_cons]
      cases hresolve : r.resolve type with
      | ok t => simpa using ih
      | error e => simp

theorem undefinedTypes_eq_nil_iff :
    r.undefinedTypes = [] ↔
      ∀ m ∈ r.graph.members, ∀ type, m.type? = some type → ∃ t, r.resolve type = .ok t := by
  have hsorted : r.undefinedTypes = [] ↔
      r.unresolvedNames (r.graph.members.filterMap (·.type?)) [] = [] := by
    rw [← List.length_eq_zero_iff, ← List.length_eq_zero_iff, undefinedTypes,
      (List.mergeSort_perm _ _).length_eq]
  rw [hsorted, unresolvedNames_eq_nil_iff]
  simp only [List.mem_filterMap]
  constructor
  · intro h m hm type htype
    exact h type ⟨m, hm, htype⟩
  · rintro h type ⟨m, hm, htype⟩
    exact h m hm type htype

theorem mem_members_of_member? {g : TypeGraph} {slot : Slot} {m : Member}
    (h : g.member? slot = some m) : m ∈ g.members := by
  cases slot with
  | node key =>
      obtain ⟨node, hnode, rfl⟩ := Option.map_eq_some_iff.mp h
      exact List.mem_append_left _
        (List.mem_map.mpr ⟨_, TypeGraph.mem_nodes_of_node? hnode, rfl⟩)
  | field owner name =>
      obtain ⟨field, hfield, rfl⟩ := Option.map_eq_some_iff.mp h
      exact List.mem_append_right _
        (List.mem_map.mpr ⟨_, (TypeGraph.field?_eq_some hfield).1, rfl⟩)

/-- A well-formed graph without undefined names. -/
structure Complete (r : Resolver) : Prop where
  wellFormed : r.graph.WellFormed
  defined : r.undefinedTypes = []

end Resolver

/-- Every parameter and every field of a well-formed graph has a type expression. -/
theorem TypeGraph.WellFormed.exists_type {g : TypeGraph} (hg : g.WellFormed) {slot : Slot}
    (h : g.HasMember slot) :
    ∃ m type, g.member? slot = some m ∧ m.type? = some type := by
  cases slot with
  | node key =>
      obtain ⟨node, hnode, hparam⟩ := hg.mem_params.mp h
      have htyped := hg.node_typed hnode
      rw [hparam] at htyped
      obtain ⟨type, htype⟩ := Option.isSome_iff_exists.mp htyped
      exact ⟨node.member, type, by rw [TypeGraph.member?, hnode]; rfl, htype⟩
  | field owner name =>
      obtain ⟨field, hfield⟩ := Option.isSome_iff_exists.mp h
      obtain ⟨type, htype⟩ := Option.isSome_iff_exists.mp (hg.field_typed hfield)
      exact ⟨field.member, type, by rw [TypeGraph.member?, hfield]; rfl, htype⟩

namespace Resolver

variable {r : Resolver}

/-- The type of a parameter or field is that of its expression. -/
theorem resolveSlot_eq {slot : Slot} {m : Member} {type : TypeExpr}
    (hm : r.graph.member? slot = some m) (htype : m.type? = some type) :
    r.resolveSlot slot = r.resolve type := by
  simp only [resolveSlot, hm, Option.bind_some, htype]

/-- If no name is undefined, the type of every parameter and field resolves. -/
theorem Complete.exists_resolveSlot (hr : r.Complete) {slot : Slot}
    (h : r.graph.HasMember slot) : ∃ t, r.resolveSlot slot = .ok t := by
  obtain ⟨m, type, hm, htype⟩ := hr.wellFormed.exists_type h
  rw [resolveSlot_eq hm htype]
  exact undefinedTypes_eq_nil_iff.mp hr.defined m (mem_members_of_member? hm) type htype

end Resolver

end AnnotatedValues
