import AnnotatedValues.Proofs.Resolved.Resolution
import AnnotatedValues.Schema.Resource

/-!
# Every resolved graph has a schema

Where no name is undefined, types, members, structs and the parameters together
have schemas, whatever structs are being expanded.
-/

namespace AnnotatedValues.Resolver

open Fallible

variable {r : Resolver}

theorem exists_typeSchema {struct : StructRef → Except Unresolved Schema}
    (hstruct : ∀ ref, ∃ s, struct ref = .ok s) (t : Resolved) :
    ∃ s, typeSchema struct t = .ok s := by
  induction t with
  | primitive p => exact ⟨_, rfl⟩
  | format name => exact ⟨_, rfl⟩
  | semantic s => exact ⟨_, rfl⟩
  | pointer inner ih => exact ih
  | array inner ih =>
      obtain ⟨s, hs⟩ := ih
      exact ⟨_, map_eq_ok_iff.mpr ⟨s, hs, rfl⟩⟩
  | map inner ih =>
      obtain ⟨s, hs⟩ := ih
      exact ⟨_, map_eq_ok_iff.mpr ⟨s, hs, rfl⟩⟩
  | enum ref => exact ⟨_, rfl⟩
  | struct ref => exact hstruct ref

theorem Complete.exists_memberSchema (hr : r.Complete)
    {struct : StructRef → Except Unresolved Schema} (hstruct : ∀ ref, ∃ s, struct ref = .ok s)
    {slot : Slot} (hslot : r.graph.HasMember slot) : ∃ s, r.memberSchema struct slot = .ok s := by
  obtain ⟨type, htype⟩ := hr.exists_resolveSlot hslot
  obtain ⟨schema, hschema⟩ := exists_typeSchema hstruct type
  exact ⟨_, bind_eq_ok_iff.mpr ⟨type, htype, bind_eq_ok_iff.mpr ⟨schema, hschema, rfl⟩⟩⟩

theorem Complete.exists_structSchema (hr : r.Complete) (fuel : Nat) (path : List String)
    (ref : StructRef) : ∃ s, r.structSchema fuel path ref = .ok s := by
  induction fuel generalizing path ref with
  | zero => exact ⟨_, rfl⟩
  | succ fuel ih =>
      rw [structSchema]
      split
      · exact ⟨_, rfl⟩
      · have hproperty : ∀ f ∈ r.graph.fieldsOf ref.key, ∃ property,
            (do
              let schema ← r.memberSchema (r.structSchema fuel (ref.key :: path))
                (.field ref.key f.name)
              return (f.name, schema)) = (.ok property : Except Unresolved (String × Schema)) := by
          intro f hf
          obtain ⟨schema, hschema⟩ := hr.exists_memberSchema (ih (ref.key :: path))
            (TypeGraph.hasMember_of_mem_fieldsOf hf)
          exact ⟨_, bind_eq_ok_iff.mpr ⟨schema, hschema, rfl⟩⟩
        obtain ⟨properties, hproperties⟩ := exists_mapM_eq_ok hproperty
        exact ⟨_, bind_eq_ok_iff.mpr ⟨properties, hproperties, rfl⟩⟩

theorem Complete.exists_paramSchema (hr : r.Complete) {key : String} (hkey : key ∈ r.graph.params) :
    ∃ s, r.paramSchema key = .ok s :=
  hr.exists_memberSchema (hr.exists_structSchema _ []) hkey

theorem Complete.exists_specSchema (hr : r.Complete) : ∃ s, r.specSchema = .ok s := by
  have hproperty : ∀ key ∈ r.graph.sortedParams, ∃ property,
      (do return (r.graph.nameOf key, ← r.paramSchema key)) =
        (.ok property : Except Unresolved (String × Schema)) := by
    intro key hkey
    obtain ⟨schema, hschema⟩ := hr.exists_paramSchema (TypeGraph.mem_sortedParams.mp hkey)
    exact ⟨_, bind_eq_ok_iff.mpr ⟨schema, hschema, rfl⟩⟩
  obtain ⟨properties, hproperties⟩ := exists_mapM_eq_ok hproperty
  exact ⟨_, bind_eq_ok_iff.mpr ⟨properties, hproperties, rfl⟩⟩

/-- The compiler that works on the resolved graph wraps the schema of the parameters. -/
theorem Complete.exists_native (hr : r.Complete) (source declarations : String) :
    ∃ spec, r.specSchema = .ok spec ∧
      SchemaCompiler.native source declarations r = .ok (.wrap spec) := by
  obtain ⟨spec, hspec⟩ := hr.exists_specSchema
  refine ⟨spec, hspec, ?_⟩
  rw [SchemaCompiler.native, hspec]

end AnnotatedValues.Resolver
