import AnnotatedValues.Proofs.Decimal.Digits
import AnnotatedValues.Proofs.Graph.WellFormed
import AnnotatedValues.Resolved.Resolver
import Mathlib.Data.List.Nodup
import Mathlib.Data.List.Perm.Subperm

/-!
# Identifiers are distinct

A name that is taken gets the first free number, and there is one: of more
candidates than there are taken names, one is free.  So the types of a graph get
identifiers that differ from each other and from those of the root types.
-/

namespace AnnotatedValues.Identifier

open Decimal

/-! ## Free names -/

theorem numbered_injective {base : String} {m n : Nat} (h : numbered base m = numbered base n) :
    m = n := by
  have hchars := congrArg String.toList h
  simp only [numbered, String.toList_append, String.toList_ofList, List.append_cancel_left_eq]
    at hchars
  exact natText_injective hchars

/-- All candidates before the one that is found are taken. -/
theorem exists_firstFree_eq (taken : List String) (base : String) (tries n : Nat) :
    ∃ last, firstFree taken base tries n = numbered base last ∧ n ≤ last ∧
      ∀ m, n ≤ m → m < last → numbered base m ∈ taken := by
  induction tries generalizing n with
  | zero => exact ⟨n, rfl, Nat.le_refl n, fun m hm hlt => absurd hlt (Nat.not_lt.mpr hm)⟩
  | succ tries ih =>
      rw [firstFree]
      split
      · rename_i hfirst
        obtain ⟨last, hlast, hle, hbefore⟩ := ih (n + 1)
        refine ⟨last, hlast, Nat.le_of_succ_le hle, fun m hm hlt => ?_⟩
        rcases Nat.eq_or_lt_of_le hm with rfl | hlater
        · exact List.contains_iff_mem.mp hfirst
        · exact hbefore m hlater hlt
      · exact ⟨n, rfl, Nat.le_refl n, fun m hm hlt => absurd hlt (Nat.not_lt.mpr hm)⟩

/-- What is found is the base or the base with a number. -/
theorem free_eq (taken : List String) (base : String) :
    free taken base = base ∨ ∃ n, free taken base = numbered base n := by
  unfold free
  split
  · obtain ⟨last, hlast, -⟩ := exists_firstFree_eq taken base taken.length 2
    exact Or.inr ⟨last, hlast⟩
  · exact Or.inl rfl

/-- A name that is found and nevertheless taken is the last of candidates that all are. -/
theorem numbered_mem_of_firstFree_mem {taken : List String} {base : String} {tries n : Nat}
    (h : firstFree taken base tries n ∈ taken) :
    ∀ i ≤ tries, numbered base (n + i) ∈ taken := by
  induction tries generalizing n with
  | zero =>
      intro i hi
      rw [Nat.le_zero.mp hi]
      exact h
  | succ tries ih =>
      rw [firstFree] at h
      split at h
      · rename_i hfirst
        intro i hi
        cases i with
        | zero => exact List.contains_iff_mem.mp hfirst
        | succ i =>
            have hlater := ih h i (Nat.le_of_succ_le_succ hi)
            rwa [Nat.add_right_comm] at hlater
      · rename_i hfirst
        exact absurd (List.contains_iff_mem.mpr h) hfirst

theorem firstFree_not_mem (taken : List String) (base : String) (n : Nat) :
    firstFree taken base taken.length n ∉ taken := by
  intro h
  have hall := numbered_mem_of_firstFree_mem h
  have hnodup : ((List.range (taken.length + 1)).map fun i => numbered base (n + i)).Nodup := by
    refine List.Nodup.map ?_ List.nodup_range
    intro i j hij
    exact Nat.add_left_cancel (numbered_injective hij)
  have hsubset : ((List.range (taken.length + 1)).map fun i => numbered base (n + i)) ⊆ taken := by
    intro name hname
    obtain ⟨i, hi, rfl⟩ := List.mem_map.mp hname
    exact hall i (Nat.le_of_lt_succ (List.mem_range.mp hi))
  have hlength := (hnodup.subperm hsubset).length_le
  simp at hlength

theorem free_not_mem (taken : List String) (base : String) : free taken base ∉ taken := by
  unfold free
  split
  · exact firstFree_not_mem taken base 2
  · rename_i hfree
    exact fun h => hfree (List.contains_iff_mem.mpr h)

theorem map_fst_assignFree (taken : List String) (bases : List (String × String)) :
    (assignFree taken bases).map Prod.fst = bases.map Prod.fst := by
  induction bases generalizing taken with
  | nil => rfl
  | cons base bases ih => simp [assignFree, ih]

theorem assignFree_not_mem {taken : List String} {bases : List (String × String)} {ident : String}
    (h : ident ∈ (assignFree taken bases).map Prod.snd) : ident ∉ taken := by
  induction bases generalizing taken with
  | nil => cases h
  | cons base bases ih =>
      rw [assignFree, List.map_cons, List.mem_cons] at h
      rcases h with rfl | h
      · exact free_not_mem taken base.2
      · exact fun hmem => ih h (List.mem_cons_of_mem _ hmem)

theorem nodup_assignFree (taken : List String) (bases : List (String × String)) :
    ((assignFree taken bases).map Prod.snd).Nodup := by
  induction bases generalizing taken with
  | nil => exact List.nodup_nil
  | cons base bases ih =>
      rw [assignFree, List.map_cons, List.nodup_cons]
      exact ⟨fun h => assignFree_not_mem h List.mem_cons_self, ih _⟩

/-- Each identifier was searched for from a base. -/
theorem exists_free_of_mem_assignFree {taken : List String} {bases : List (String × String)}
    {entry : String × String} (h : entry ∈ assignFree taken bases) :
    ∃ base taken', (entry.1, base) ∈ bases ∧ entry.2 = free taken' base := by
  induction bases generalizing taken with
  | nil => cases h
  | cons base bases ih =>
      rcases List.mem_cons.mp h with rfl | hrest
      · exact ⟨base.2, taken, List.mem_cons_self, rfl⟩
      · obtain ⟨found, taken', hfound, hfree⟩ := ih hrest
        exact ⟨found, taken', List.mem_cons_of_mem base hfound, hfree⟩

/-! ## Identifiers of a graph -/

/-- The names that no type of a graph gets. -/
def taken : List String := [root, rootSpec, emptyObject]

theorem mem_types {g : TypeGraph} {entry : String × Node} :
    entry ∈ g.types ↔ entry ∈ g.nodes :=
  Keyed.mem_sortEntries

/-- The identifier of a type was searched for from its name, maybe behind the lead for collisions. -/
theorem exists_free_of_mem_ofGraph {g : TypeGraph} {key ident : String}
    (h : (key, ident) ∈ ofGraph g) :
    ∃ node, (key, node) ∈ g.nodes ∧ ∃ lead ∈ ["", collisionLead], ∃ taken,
      ident = free taken (lead ++ withLetter 'T' node.name) := by
  have hnode : ∀ {base : String}, (key, base) ∈ typeBases g →
      ∃ node, (key, node) ∈ g.nodes ∧ base = withLetter 'T' node.name := by
    intro base hbase
    obtain ⟨entry, hentry, heq⟩ := List.mem_map.mp hbase
    cases heq
    exact ⟨entry.2, mem_types.mp (List.mem_filter.mp hentry).1, rfl⟩
  obtain ⟨base, taken, hbase, rfl⟩ := exists_free_of_mem_assignFree h
  rcases List.mem_append.mp hbase with hplain | hrenamed
  · obtain ⟨node, hmem, rfl⟩ := hnode (List.mem_filter.mp hplain).1
    exact ⟨node, hmem, "", List.mem_cons_self, taken, by rw [String.empty_append]⟩
  · obtain ⟨⟨key', base'⟩, hentry, heq⟩ := List.mem_map.mp hrenamed
    cases heq
    obtain ⟨node, hmem, rfl⟩ := hnode (List.mem_filter.mp hentry).1
    exact ⟨node, hmem, collisionLead, List.mem_cons_of_mem _ List.mem_cons_self, taken, rfl⟩

theorem mem_keys_ofGraph {g : TypeGraph} {key : String} :
    key ∈ (ofGraph g).map Prod.fst ↔ ∃ node, (key, node) ∈ g.nodes ∧ isNamedType g key node = true := by
  have hbases : key ∈ (typeBases g).map Prod.fst ↔
      ∃ node, (key, node) ∈ g.nodes ∧ isNamedType g key node = true := by
    constructor
    · intro h
      obtain ⟨base, hbase, rfl⟩ := List.mem_map.mp h
      obtain ⟨entry, hentry, rfl⟩ := List.mem_map.mp hbase
      obtain ⟨hmem, hnamed⟩ := List.mem_filter.mp hentry
      exact ⟨entry.2, mem_types.mp hmem, hnamed⟩
    · rintro ⟨node, hmem, hnamed⟩
      have hentry : (key, node) ∈ g.types.filter fun t => isNamedType g t.1 t.2 :=
        List.mem_filter.mpr ⟨mem_types.mpr hmem, hnamed⟩
      exact List.mem_map.mpr ⟨_, List.mem_map.mpr ⟨_, hentry, rfl⟩, rfl⟩
  rw [← hbases, ofGraph, map_fst_assignFree, List.map_append, List.map_map]
  simp only [List.mem_append, List.mem_map, List.mem_filter, Function.comp_apply]
  constructor
  · rintro (⟨base, ⟨hbase, -⟩, rfl⟩ | ⟨base, ⟨hbase, -⟩, rfl⟩) <;> exact ⟨base, hbase, rfl⟩
  · rintro ⟨base, hbase, rfl⟩
    cases hreserved : isReserved base.2 with
    | true => exact Or.inr ⟨base, ⟨hbase, hreserved⟩, rfl⟩
    | false => exact Or.inl ⟨base, ⟨hbase, by simp [hreserved]⟩, rfl⟩

/-- In a list of pairs whose second parts differ, the second part determines the first. -/
theorem fst_eq_of_mem_of_nodup {entries : List (String × String)} {k l ident : String}
    (h : (entries.map Prod.snd).Nodup) (hk : (k, ident) ∈ entries) (hl : (l, ident) ∈ entries) :
    k = l := by
  have hsame := List.inj_on_of_nodup_map h hk hl rfl
  exact congrArg Prod.fst hsame

end AnnotatedValues.Identifier

namespace AnnotatedValues.Resolver

open Identifier

theorem graph_ofGraph (g : TypeGraph) : (ofGraph g).graph = g := rfl

/-- A node that gets an identifier. -/
def IsType (r : Resolver) (key : String) : Prop :=
  ∃ node, (key, node) ∈ r.graph.nodes ∧ isNamedType r.graph key node = true

section

variable {g : TypeGraph} {key other : String}

theorem lookup_ofGraph (hkey : (ofGraph g).IsType key) :
    ∃ ident, (Identifier.ofGraph g).lookup key = some ident := by
  have hmem : key ∈ (Identifier.ofGraph g).map Prod.fst := mem_keys_ofGraph.mpr hkey
  obtain ⟨entry, hentry, hfst⟩ := List.mem_map.mp hmem
  rw [← Option.isSome_iff_exists, List.lookup_isSome_iff]
  exact ⟨entry, hentry, by simp [hfst]⟩

theorem ident_mem_ofGraph (hkey : (ofGraph g).IsType key) :
    (key, (ofGraph g).ident key) ∈ Identifier.ofGraph g := by
  obtain ⟨ident, hident⟩ := lookup_ofGraph hkey
  have hresult : (ofGraph g).ident key = ident := by
    simp [Resolver.ident, Resolver.ofGraph, hident]
  rw [hresult]
  exact Keyed.mem_of_lookup hident

/-- Types of one graph with one identifier are one type. -/
theorem ident_injective (hkey : (ofGraph g).IsType key) (hother : (ofGraph g).IsType other)
    (h : (ofGraph g).ident key = (ofGraph g).ident other) : key = other := by
  have hfirst := ident_mem_ofGraph hkey
  rw [h] at hfirst
  exact fst_eq_of_mem_of_nodup (nodup_assignFree _ _) hfirst (ident_mem_ofGraph hother)

/-- No type of a graph is called like a root type or the empty struct. -/
theorem ident_not_mem_taken (hkey : (ofGraph g).IsType key) :
    (ofGraph g).ident key ∉ Identifier.taken :=
  assignFree_not_mem (List.mem_map.mpr ⟨_, ident_mem_ofGraph hkey, rfl⟩)

end

end AnnotatedValues.Resolver
