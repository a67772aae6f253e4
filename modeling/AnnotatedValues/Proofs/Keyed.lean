import AnnotatedValues.Document.Basic
import AnnotatedValues.Proofs.Fallible
import Mathlib.Data.List.Nodup

/-!
# Lists of pairs with different keys

Where keys differ, looking up a key finds the one pair that has it, in whatever
order the pairs stand; and sorting by them makes one list of all orders.
-/

namespace AnnotatedValues.Keyed

open Fallible

variable {α : Type} {entries : List (String × α)} {key : String} {value : α}

/-- A list to which a member is added that it does not have. -/
theorem nodup_append_singleton_iff {β : Type} {as : List β} {a : β} :
    (as ++ [a]).Nodup ↔ a ∉ as ∧ as.Nodup := by
  rw [← List.concat_eq_append, List.nodup_concat]

theorem lookup_eq_find? (entries : List (String × α)) (key : String) :
    entries.lookup key = (entries.find? fun e => e.1 == key).map Prod.snd := by
  induction entries with
  | nil => rfl
  | cons entry entries ih =>
      rw [List.lookup_cons, List.find?_cons, ih, BEq.comm]
      cases entry.1 == key <;> rfl

theorem mem_of_lookup (h : entries.lookup key = some value) : (key, value) ∈ entries := by
  obtain ⟨before, after, hsplit, -⟩ := List.lookup_eq_some_iff.mp h
  rw [hsplit]
  exact List.mem_append_right _ List.mem_cons_self

theorem lookup_of_mem (hkeys : (entries.map Prod.fst).Nodup) (h : (key, value) ∈ entries) :
    entries.lookup key = some value := by
  induction entries with
  | nil => cases h
  | cons entry entries ih =>
      rw [List.map_cons, List.nodup_cons] at hkeys
      rw [List.lookup_cons]
      rcases List.mem_cons.mp h with rfl | htail
      · simp
      · have hne : key ≠ entry.1 := by
          rintro rfl
          exact hkeys.1 (List.mem_map.mpr ⟨_, htail, rfl⟩)
        rw [beq_false_of_ne hne]
        exact ih hkeys.2 htail

/-- Lists of pairs in which the same is found under each key are the same up to order. -/
theorem perm_of_lookup_eq {others : List (String × α)} (hkeys : (entries.map Prod.fst).Nodup)
    (hothers : (others.map Prod.fst).Nodup)
    (h : ∀ key, entries.lookup key = others.lookup key) : entries.Perm others := by
  refine (List.perm_ext_iff_of_nodup (List.Nodup.of_map _ hkeys)
    (List.Nodup.of_map _ hothers)).mpr ?_
  rintro ⟨key, value⟩
  constructor
  · intro hmem
    have hlookup := lookup_of_mem hkeys hmem
    rw [h] at hlookup
    exact mem_of_lookup hlookup
  · intro hmem
    have hlookup := lookup_of_mem hothers hmem
    rw [← h] at hlookup
    exact mem_of_lookup hlookup

/-- Members sorted by a key ascend. -/
theorem pairwise_mergeSort {β : Type} (key : β → String) (as : List β) :
    (as.mergeSort fun a b => decide (key a ≤ key b)).Pairwise
      fun a b => decide (key a ≤ key b) = true := by
  refine List.pairwise_mergeSort (fun a b c hab hbc => ?_) (fun a b => ?_) as
  · exact decide_eq_true (String.le_trans (of_decide_eq_true hab) (of_decide_eq_true hbc))
  · rcases String.le_total (key a) (key b) with hab | hba
    · rw [decide_eq_true hab, Bool.true_or]
    · rw [decide_eq_true hba, Bool.or_true]

/-- If no two have one key, they ascend strictly. -/
theorem pairwise_lt_mergeSort {β : Type} (key : β → String) {as : List β}
    (hkeys : (as.map key).Nodup) :
    (as.mergeSort fun a b => decide (key a ≤ key b)).Pairwise fun a b => key a < key b := by
  have hnodup : ((as.mergeSort fun a b => decide (key a ≤ key b)).map key).Nodup :=
    ((List.mergeSort_perm as _).map key).nodup_iff.mpr hkeys
  refine (pairwise_mergeSort key as).imp₂ (fun a b hle hne => ?_) (List.pairwise_map.mp hnodup)
  by_contra hlt
  exact hne (String.le_antisymm (of_decide_eq_true hle) (String.not_lt.mp hlt))

/-- Sorting by a key that tells the members apart forgets their order. -/
theorem mergeSort_eq_of_perm {β : Type} {as bs : List β} (key : β → String) (h : as.Perm bs)
    (hinjective : ∀ a ∈ as, ∀ b ∈ as, key a = key b → a = b) :
    (as.mergeSort fun a b => decide (key a ≤ key b)) =
      bs.mergeSort fun a b => decide (key a ≤ key b) := by
  refine List.Perm.eq_of_pairwise ?_ (pairwise_mergeSort key as) (pairwise_mergeSort key bs)
    ((List.mergeSort_perm as _).trans (h.trans (List.mergeSort_perm bs _).symm))
  intro a b ha hb hab hba
  have hin : a ∈ as := (List.mergeSort_perm as _).mem_iff.mp ha
  have hin' : b ∈ as := h.mem_iff.mpr ((List.mergeSort_perm bs _).mem_iff.mp hb)
  exact hinjective a hin b hin'
    (String.le_antisymm (of_decide_eq_true hab) (of_decide_eq_true hba))

theorem mem_sortEntries {entry : String × α} :
    entry ∈ Document.sortEntries entries ↔ entry ∈ entries :=
  (List.mergeSort_perm _ _).mem_iff

/-! ## Keys that are left -/

theorem lookup_filter (keeps : String → Bool) (entries : List (String × α)) (key : String) :
    (entries.filter fun entry => keeps entry.1).lookup key =
      if keeps key then entries.lookup key else none := by
  induction entries with
  | nil => cases keeps key <;> rfl
  | cons entry entries ih =>
      rw [List.filter_cons, List.lookup_cons]
      by_cases hkey : key = entry.1
      · subst hkey
        split
        · rw [List.lookup_cons, beq_self_eq_true]
        · rename_i hkeeps
          rw [ih, if_neg hkeeps]
      · rw [beq_false_of_ne hkey]
        split
        · rw [List.lookup_cons, beq_false_of_ne hkey]
          exact ih
        · exact ih

/-- Sorting what is left is leaving it of what is sorted. -/
theorem sortEntries_filter (hkeys : (entries.map Prod.fst).Nodup) (keeps : String × α → Bool) :
    Document.sortEntries (entries.filter keeps) = (Document.sortEntries entries).filter keeps := by
  have hsorted := (pairwise_mergeSort Prod.fst entries).filter keeps
  refine Eq.trans ?_ (List.mergeSort_of_pairwise hsorted)
  refine mergeSort_eq_of_perm Prod.fst ((List.mergeSort_perm entries _).symm.filter keeps) ?_
  intro a ha b hb hsame
  exact List.inj_on_of_nodup_map hkeys (List.mem_of_mem_filter ha) (List.mem_of_mem_filter hb) hsame

/-! ## Results under names -/

variable {ε β : Type} {as : List β} {name : β → String} {f : β → Except ε α}

/-- The names stand in the order of the members. -/
theorem map_fst_of_mapM
    (h : as.mapM (fun a => do let result ← f a; return (name a, result)) = .ok entries) :
    entries.map Prod.fst = as.map name := by
  refine map_eq_of_mapM ?_ h
  intro a entry hentry
  obtain ⟨result, -, hpair⟩ := bind_eq_ok_iff.mp hentry
  rw [pure_eq_ok_iff] at hpair
  rw [← hpair]

/-- What is found under a name is the result of a member with that name. -/
theorem exists_of_lookup_mapM
    (h : as.mapM (fun a => do let result ← f a; return (name a, result)) = .ok entries)
    (hlookup : entries.lookup key = some value) : ∃ a ∈ as, name a = key ∧ f a = .ok value := by
  obtain ⟨a, ha, hresult⟩ := exists_mem_of_mapM h (mem_of_lookup hlookup)
  obtain ⟨result, hresult, hpair⟩ := bind_eq_ok_iff.mp hresult
  rw [pure_eq_ok_iff] at hpair
  cases hpair
  exact ⟨a, ha, rfl, hresult⟩

/-- Something is found under the name of each member. -/
theorem isSome_lookup_mapM
    (h : as.mapM (fun a => do let result ← f a; return (name a, result)) = .ok entries)
    {a : β} (ha : a ∈ as) : (entries.lookup (name a)).isSome = true := by
  obtain ⟨entry, hentry, hresult⟩ := exists_result_of_mapM h ha
  obtain ⟨result, -, hpair⟩ := bind_eq_ok_iff.mp hresult
  rw [pure_eq_ok_iff] at hpair
  subst hpair
  exact List.lookup_isSome_iff.mpr ⟨_, hentry, beq_self_eq_true _⟩

end AnnotatedValues.Keyed
