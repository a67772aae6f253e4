import AnnotatedValues.Proofs.Resolved.Resolution
import AnnotatedValues.Table.Build

/-!
# Every resolved graph has tables

Where no name is undefined, members, structs, parameters and sections have rows,
whatever the document holds and whatever structs are being listed.
-/

namespace AnnotatedValues

open Fallible

namespace Table

variable {r : Resolver}

theorem exists_memberRows (hr : r.Complete) {structRows : Listing → Except Unresolved (List Row)}
    (hstruct : ∀ listing, ∃ rows, structRows listing = .ok rows) (path : String) {slot : Slot}
    (hslot : r.graph.HasMember slot) (value? : Option Document) :
    ∃ rows, memberRows r structRows path slot value? = .ok rows := by
  obtain ⟨type, htype⟩ := hr.exists_resolveSlot hslot
  have hall : ∀ listing ∈ listings type path (value?.filter fun value => !value.isNull),
      ∃ rows, structRows listing = .ok rows := fun listing _ => hstruct listing
  obtain ⟨below, hbelow⟩ := exists_mapM_eq_ok hall
  exact ⟨_, bind_eq_ok_iff.mpr ⟨type, htype, bind_eq_ok_iff.mpr ⟨below, hbelow, rfl⟩⟩⟩

theorem exists_structRows (hr : r.Complete) (fuel : Nat) (path : List String) (listing : Listing) :
    ∃ rows, structRows r fuel path listing = .ok rows := by
  induction fuel generalizing path listing with
  | zero => exact ⟨_, rfl⟩
  | succ fuel ih =>
      rw [structRows]
      split
      · exact ⟨_, rfl⟩
      · have hfield : ∀ f ∈ r.graph.fieldsOf listing.owner, ∃ rows,
            memberRows r (structRows r fuel (listing.owner :: path))
              (listing.path ++ "." ++ f.name) (.field listing.owner f.name)
              (listing.value?.bind fun value => value.get? f.name) = .ok rows := fun f hf =>
          exists_memberRows hr (ih _) _ (TypeGraph.hasMember_of_mem_fieldsOf hf) _
        obtain ⟨rows, hrows⟩ := exists_mapM_eq_ok hfield
        exact ⟨_, bind_eq_ok_iff.mpr ⟨rows, hrows, rfl⟩⟩

theorem exists_paramRows (hr : r.Complete) (values : Document) (name : String) :
    ∃ rows, paramRows r values name = .ok rows := by
  unfold paramRows
  split
  · rename_i key hkey
    exact exists_memberRows hr (exists_structRows hr _ []) _
      (hr.wellFormed.hasMember_of_param? hkey) _
  · exact ⟨_, rfl⟩

theorem exists_ofSection (hr : r.Complete) (values : Document) (s : Annotation.Section) :
    ∃ table, ofSection r values s = .ok table := by
  have hall : ∀ name ∈ s.params, ∃ rows, paramRows r values name = .ok rows :=
    fun name _ => exists_paramRows hr values name
  obtain ⟨rows, hrows⟩ := exists_mapM_eq_ok hall
  exact ⟨_, bind_eq_ok_iff.mpr ⟨rows, hrows, rfl⟩⟩

end Table

theorem Resolver.Complete.exists_tables {r : Resolver} (hr : r.Complete)
    (sections : List Annotation.Section) (values : Document) :
    ∃ tables, r.tables sections values = .ok tables := by
  have hall : ∀ s ∈ sections, ∃ table, Table.ofSection r values s = .ok table :=
    fun s _ => Table.exists_ofSection hr values s
  obtain ⟨tables, htables⟩ := exists_mapM_eq_ok hall
  exact ⟨_, bind_eq_ok_iff.mpr ⟨tables, htables, rfl⟩⟩

end AnnotatedValues
