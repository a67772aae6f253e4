import AnnotatedValues.Proofs.Fallible
import AnnotatedValues.Proofs.Keyed
import AnnotatedValues.ValuesFile

/-!
# The order of entries

Documents that are read have distinct keys in each object.  Documents that are
made from each other by moving entries within their objects, at any depth, have
the same sorted form.
-/

namespace AnnotatedValues

namespace Document

/-- The keys of each object differ. -/
inductive Distinct : Document → Prop where
  | null : Distinct .null
  | bool (value : Bool) : Distinct (.bool value)
  | number (value : Number) : Distinct (.number value)
  | string (value : String) : Distinct (.string value)
  | array {items : List Document} (hitems : ∀ item ∈ items, item.Distinct) :
      Distinct (.array items)
  | object {entries : List (String × Document)} (hkeys : (entries.map Prod.fst).Nodup)
      (hvalues : ∀ entry ∈ entries, entry.2.Distinct) : Distinct (.object entries)

/-- Entries stand in another order, in some of the objects of a document. -/
inductive Rearranged : Document → Document → Prop where
  | refl (d : Document) : Rearranged d d
  | entries {entries entries' : List (String × Document)} (h : entries.Perm entries') :
      Rearranged (.object entries) (.object entries')
  | item (before after : List Document) {d d' : Document} (h : Rearranged d d') :
      Rearranged (.array (before ++ d :: after)) (.array (before ++ d' :: after))
  | value (key : String) (before after : List (String × Document)) {d d' : Document}
      (h : Rearranged d d') :
      Rearranged (.object (before ++ (key, d) :: after)) (.object (before ++ (key, d') :: after))
  | trans {d d' d'' : Document} (h : Rearranged d d') (h' : Rearranged d' d'') : Rearranged d d''

theorem Distinct.keys_nodup {d : Document} (h : d.Distinct) : (d.entries.map Prod.fst).Nodup := by
  cases h with
  | object hkeys => exact hkeys
  | _ => exact List.nodup_nil

theorem Distinct.of_mem_entries {d : Document} (h : d.Distinct) {entry : String × Document}
    (hentry : entry ∈ d.entries) : entry.2.Distinct := by
  cases h with
  | object _ hvalues => exact hvalues entry hentry
  | _ => cases hentry

/-! ## Sorted entries -/

theorem entries_sorted (d : Document) :
    d.sorted.entries = sortEntries (d.entries.map fun e => (e.1, e.2.sorted)) := by
  cases d with
  | object entries => rw [sorted_object]; rfl
  | array items => rw [sorted_array]; exact (List.mergeSort_nil).symm
  | _ => exact (List.mergeSort_nil).symm

theorem keys_map_sorted (entries : List (String × Document)) :
    (entries.map fun e => (e.1, e.2.sorted)).map Prod.fst = entries.map Prod.fst := by
  rw [List.map_map]
  rfl

/-- Sorted entries with distinct keys ascend. -/
theorem pairwise_sortEntries {α : Type} {entries : List (String × α)}
    (hkeys : (entries.map Prod.fst).Nodup) :
    (sortEntries entries).Pairwise fun a b => a.1 < b.1 :=
  Keyed.pairwise_lt_mergeSort Prod.fst hkeys

theorem sortEntries_eq_of_perm {entries entries' : List (String × Document)}
    (hkeys : (entries.map Prod.fst).Nodup) (h : entries.Perm entries') :
    sortEntries (entries.map fun e => (e.1, e.2.sorted)) =
      sortEntries (entries'.map fun e => (e.1, e.2.sorted)) := by
  refine Keyed.mergeSort_eq_of_perm Prod.fst (h.map _) fun a ha b hb heq => ?_
  have hnodup : ((entries.map fun e => (e.1, e.2.sorted)).map Prod.fst).Nodup := by
    rwa [keys_map_sorted]
  exact List.inj_on_of_nodup_map hnodup ha hb heq

/-- The order of entries is not seen in the sorted form. -/
theorem Rearranged.distinct_and_sorted {d d' : Document} (h : Rearranged d d') (hd : d.Distinct) :
    d'.Distinct ∧ d'.sorted = d.sorted := by
  induction h with
  | refl d => exact ⟨hd, rfl⟩
  | @entries entries entries' hperm =>
      cases hd with
      | object hkeys hvalues =>
          refine ⟨.object ((hperm.map Prod.fst).nodup_iff.mp hkeys) fun entry hentry =>
            hvalues entry (hperm.mem_iff.mpr hentry), ?_⟩
          rw [sorted_object, sorted_object, sortEntries_eq_of_perm hkeys hperm]
  | @item before after d d' _ ih =>
      cases hd with
      | array hitems =>
          rw [List.forall_mem_append, List.forall_mem_cons] at hitems
          obtain ⟨hbefore, hitem, hafter⟩ := hitems
          obtain ⟨hdistinct, hsorted⟩ := ih hitem
          refine ⟨.array ?_, ?_⟩
          · rw [List.forall_mem_append, List.forall_mem_cons]
            exact ⟨hbefore, hdistinct, hafter⟩
          · rw [sorted_array, sorted_array, List.map_append, List.map_append, List.map_cons,
              List.map_cons, hsorted]
  | @value key before after d d' _ ih =>
      cases hd with
      | object hkeys hvalues =>
          rw [List.forall_mem_append, List.forall_mem_cons] at hvalues
          obtain ⟨hbefore, hvalue, hafter⟩ := hvalues
          obtain ⟨hdistinct, hsorted⟩ := ih hvalue
          refine ⟨.object ?_ ?_, ?_⟩
          · rw [List.map_append, List.map_cons] at hkeys ⊢
            exact hkeys
          · rw [List.forall_mem_append, List.forall_mem_cons]
            exact ⟨hbefore, hdistinct, hafter⟩
          · rw [sorted_object, sorted_object, List.map_append, List.map_append, List.map_cons,
              List.map_cons, hsorted]
  | trans _ _ ih ih' =>
      obtain ⟨hdistinct, hsorted⟩ := ih hd
      obtain ⟨hdistinct', hsorted'⟩ := ih' hdistinct
      exact ⟨hdistinct', hsorted'.trans hsorted⟩

/-! ## Documents that are read -/

theorem distinct_put {entries : List (String × Document)} (h : Distinct (.object entries))
    (key : String) {value : Document} (hvalue : value.Distinct) :
    Distinct (.object (put entries key value)) := by
  cases h with
  | object hkeys hvalues =>
      refine .object ?_ ?_
      · rw [keys_put]
        split
        · exact hkeys
        · rename_i hnew
          exact Keyed.nodup_append_singleton_iff.mpr ⟨hnew, hkeys⟩
      · clear hkeys
        induction entries with
        | nil => exact List.forall_mem_singleton.mpr hvalue
        | cons entry entries ih =>
            rw [List.forall_mem_cons] at hvalues
            rw [put]
            split
            · exact List.forall_mem_cons.mpr ⟨hvalue, hvalues.2⟩
            · exact List.forall_mem_cons.mpr ⟨hvalues.1, ih hvalues.2⟩

end Document

namespace Yaml

open Document Fallible

/-- A scalar has no keys. -/
theorem distinct_of_document? {p : Plain} {text : List Char} {d : Document}
    (h : p.document? text = some d) : d.Distinct := by
  cases p with
  | wide => cases h
  | text => cases h; exact .string _
  | null => cases h; exact .null
  | special => cases h; exact .null
  | bool b => cases h; exact .bool b
  | int n => cases h; exact .number _
  | float x => cases h; exact .number _

theorem distinct_of_scalarValue? {tag : Option TagText} {plain : Bool} {text : List Char}
    {d : Document} (h : scalarValue? tag plain text = some d) : d.Distinct := by
  unfold scalarValue? at h
  dsimp only at h
  split at h
  · split at h
    · exact distinct_of_document? h
    · cases h
      exact .string _
  · split at h
    · cases h
    split at h
    · obtain ⟨b, -, rfl⟩ := Option.map_eq_some_iff.mp h
      exact .bool b
    split at h
    · obtain ⟨p, -, hp⟩ := Option.bind_eq_some_iff.mp h
      exact distinct_of_document? hp
    split at h
    · obtain ⟨p, -, hp⟩ := Option.bind_eq_some_iff.mp h
      exact distinct_of_document? hp
    split at h
    · rw [Option.ite_none_right_eq_some, Option.some.injEq] at h
      exact h.2 ▸ .null
    split at h
    · exact distinct_of_document? h
    · cases h
      exact .string _

/-- What is read with some fuel has distinct keys. -/
structure ReadsDistinct (source : Source) (fuel : Nat) : Prop where
  value : ∀ {depth jumps items read}, readValue source fuel depth jumps items = .ok read →
    read.result.Distinct
  items : ∀ {depth jumps index items read},
    readItems source fuel depth jumps index items = .ok read → ∀ item ∈ read.result, item.Distinct
  entries : ∀ {depth jumps soFar items read},
    readEntries source fuel depth jumps soFar items = .ok read → Distinct (.object soFar) →
      Distinct (.object read.result)

namespace ReadsDistinct

variable {source : Source} {fuel : Nat}

theorem value_succ (ih : ReadsDistinct source fuel) {depth jumps : Nat} {items : List Item}
    {read : Read Document} (h : readValue source (fuel + 1) depth jumps items = .ok read) :
    read.result.Distinct := by
  unfold readValue at h
  split at h
  · -- a scalar
    split at h
    · rename_i hvalue
      cases h
      exact distinct_of_scalarValue? hvalue
    · cases h
  · -- an alias
    split at h
    · cases h
    · split at h
      · obtain ⟨target, htarget, hread⟩ := bind_eq_ok_iff.mp h
        have hdistinct := ih.value htarget
        cases hread
        exact hdistinct
      · cases h
  · -- a sequence
    split at h
    · cases h
    · obtain ⟨inner, hinner, hread⟩ := bind_eq_ok_iff.mp h
      cases hread
      exact .array (ih.items hinner)
  · -- a mapping
    split at h
    · cases h
    · obtain ⟨inner, hinner, hread⟩ := bind_eq_ok_iff.mp h
      cases hread
      exact ih.entries hinner (.object List.nodup_nil fun _ h => absurd h List.not_mem_nil)
  · cases h

theorem items_succ (ih : ReadsDistinct source fuel) {depth jumps index : Nat} {items : List Item}
    {read : Read (List Document)}
    (h : readItems source (fuel + 1) depth jumps index items = .ok read) :
    ∀ item ∈ read.result, item.Distinct := by
  unfold readItems at h
  split at h
  · cases h
  · cases h
    exact fun _ h => absurd h List.not_mem_nil
  · obtain ⟨first, hfirst, h⟩ := bind_eq_ok_iff.mp h
    obtain ⟨rest, hrest, hread⟩ := bind_eq_ok_iff.mp h
    have hitems := ih.items hrest
    cases hread
    exact List.forall_mem_cons.mpr ⟨ih.value (mapError_eq_ok_iff.mp hfirst), hitems⟩

theorem entries_succ (ih : ReadsDistinct source fuel) {depth jumps : Nat}
    {soFar : List (String × Document)} {items : List Item}
    {read : Read (List (String × Document))}
    (h : readEntries source (fuel + 1) depth jumps soFar items = .ok read)
    (hsoFar : Distinct (.object soFar)) : Distinct (.object read.result) := by
  unfold readEntries at h
  split at h
  · cases h
    exact hsoFar
  · obtain ⟨key, -, hrest⟩ := bind_eq_ok_iff.mp h
    obtain ⟨value, hvalue, hrest⟩ := bind_eq_ok_iff.mp hrest
    exact ih.entries hrest (distinct_put hsoFar _ (ih.value (mapError_eq_ok_iff.mp hvalue)))

end ReadsDistinct

/-- Each reader reads with the other two on less fuel. -/
theorem readsDistinct (source : Source) (fuel : Nat) : ReadsDistinct source fuel := by
  induction fuel with
  | zero =>
      constructor
      · intro _ _ _ _ h
        rw [readValue] at h
        cases h
      · intro _ _ _ _ _ h
        rw [readItems] at h
        cases h
      · intro _ _ _ _ _ h
        rw [readEntries] at h
        cases h
  | succ fuel ih => exact ⟨ih.value_succ, ih.items_succ, ih.entries_succ⟩

end Yaml

/-- The document of a values file has distinct keys in each object. -/
theorem Document.distinct_of_ofText {text : String} {d : Document} (h : ofText text = .ok d) :
    d.Distinct := by
  unfold ofText at h
  split at h
  · have hread := Fallible.mapError_eq_ok_iff.mp h
    unfold ofYaml Yaml.documentOfEvents at hread
    split at hread
    · cases hread
      exact .null
    · dsimp only at hread
      split at hread
      · cases hread
      · rename_i document hvalue
        split at hread
        · cases hread
          obtain ⟨read, hread, rfl⟩ := Fallible.map_eq_ok_iff.mp hvalue
          exact (Yaml.readsDistinct _ _).value hread
        · cases hread
  · cases h
    exact .null

end AnnotatedValues
