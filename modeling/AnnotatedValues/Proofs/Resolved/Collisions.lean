import AnnotatedValues.Proofs.Resolved.Identifiers

/-!
# Collisions of identifiers

The search for a free identifier ends with the base itself or with the least
number that makes it free, and no number is larger than the count of taken names
and one.  Types that are called like the root types are placed behind all
others, which therefore get the identifiers that they would have without them.
-/

namespace AnnotatedValues

namespace Identifier

open Decimal

/-! ## The search for a free identifier -/

/-- The base if it is free, else the base with the least number from 2 on that makes it free.  The
numbers that are tried are at most as many as the names that are taken. -/
inductive FirstFree (taken : List String) (base : String) : String → Prop where
  | plain (hfree : base ∉ taken) : FirstFree taken base base
  | numbered {n : Nat} (hbase : base ∈ taken) (htwo : 2 ≤ n) (hbound : n ≤ taken.length + 1)
      (hleast : ∀ m, 2 ≤ m → m < n → numbered base m ∈ taken)
      (hfree : numbered base n ∉ taken) : FirstFree taken base (numbered base n)

theorem numbered_ne_base (base : String) (n : Nat) : numbered base n ≠ base := by
  intro h
  have hchars := congrArg String.toList h
  simp only [numbered, String.toList_append, String.toList_ofList, List.append_right_eq_self]
    at hchars
  exact natText_ne_nil n hchars

/-- A base that is taken and the numbers that are taken with it are different names. -/
theorem le_length_of_numbered_mem {taken : List String} {base : String} {n : Nat}
    (hbase : base ∈ taken) (h : ∀ m, 2 ≤ m → m < n → numbered base m ∈ taken) :
    n ≤ taken.length + 1 := by
  have hnodup : (base :: (List.range (n - 2)).map fun i => numbered base (2 + i)).Nodup := by
    refine List.nodup_cons.mpr ⟨?_, List.Nodup.map ?_ List.nodup_range⟩
    · intro hmem
      obtain ⟨i, -, hi⟩ := List.mem_map.mp hmem
      exact numbered_ne_base base _ hi
    · intro i j hij
      exact Nat.add_left_cancel (numbered_injective hij)
  have hsubset : base :: ((List.range (n - 2)).map fun i => numbered base (2 + i)) ⊆ taken := by
    intro name hname
    rcases List.mem_cons.mp hname with rfl | hname
    · exact hbase
    · obtain ⟨i, hi, rfl⟩ := List.mem_map.mp hname
      have hlt := List.mem_range.mp hi
      exact h (2 + i) (Nat.le_add_right 2 i) (by omega)
  have hlength := (hnodup.subperm hsubset).length_le
  rw [List.length_cons, List.length_map, List.length_range] at hlength
  omega

theorem firstFree_free (taken : List String) (base : String) :
    FirstFree taken base (free taken base) := by
  unfold free
  split
  · rename_i htaken
    have hbase := List.contains_iff_mem.mp htaken
    have hfree := firstFree_not_mem taken base 2
    obtain ⟨last, hlast, htwo, hbefore⟩ := exists_firstFree_eq taken base taken.length 2
    rw [hlast] at hfree ⊢
    exact .numbered hbase htwo (le_length_of_numbered_mem hbase hbefore) hbefore hfree
  · rename_i hfree
    exact .plain fun hmem => hfree (List.contains_iff_mem.mpr hmem)

/-- Each base in turn gets what the search finds beside the names that are taken and those that were
found before. -/
inductive Assigned : List String → List (String × String) → List (String × String) → Prop where
  | nil (taken : List String) : Assigned taken [] []
  | cons {taken : List String} (key : String) {base ident : String}
      {bases idents : List (String × String)} (hfirst : FirstFree taken base ident)
      (hrest : Assigned (ident :: taken) bases idents) :
      Assigned taken ((key, base) :: bases) ((key, ident) :: idents)

theorem assigned_assignFree (taken : List String) (bases : List (String × String)) :
    Assigned taken bases (assignFree taken bases) := by
  induction bases generalizing taken with
  | nil => exact .nil taken
  | cons base bases ih => exact .cons base.1 (firstFree_free taken base.2) (ih _)

/-- What comes behind has no influence. -/
theorem assignFree_append (taken : List String) (bases more : List (String × String)) :
    ∃ later, assignFree taken (bases ++ more) = assignFree taken bases ++ later := by
  induction bases generalizing taken with
  | nil => exact ⟨_, rfl⟩
  | cons base bases ih =>
      obtain ⟨later, hlater⟩ := ih (free taken base.2 :: taken)
      exact ⟨later, congrArg (_ :: ·) hlater⟩

/-! ## Bases of root types -/

/-- A type collides with a root type if its name in camel case is that of one. -/
theorem isReserved_withLetter (name : String) :
    isReserved (withLetter 'T' name) = isReserved (camel name) := by
  have hroots : ∀ base ∈ [root, rootSpec], ∃ cs, base.toList = 'C' :: cs :=
    List.forall_mem_cons.mpr ⟨⟨_, rfl⟩, List.forall_mem_singleton.mpr ⟨_, rfl⟩⟩
  have hfirst : ∀ {cs : List Char}, (∀ rest, cs ≠ 'C' :: rest) →
      isReserved (String.ofList cs) = false := by
    intro cs hcs
    have hne : ∀ base ∈ [root, rootSpec], String.ofList cs ≠ base := by
      rintro base hbase rfl
      obtain ⟨rest, hrest⟩ := hroots _ hbase
      rw [String.toList_ofList] at hrest
      exact hcs rest hrest
    rw [isReserved, beq_false_of_ne (hne _ List.mem_cons_self),
      beq_false_of_ne (hne _ (List.mem_cons_of_mem _ List.mem_cons_self))]
    rfl
  unfold withLetter camel
  split
  · rename_i c cs hchars
    split
    · rw [hchars]
    · rename_i hletter
      rw [hchars, hfirst fun rest h => ?_, hfirst fun rest h => ?_]
      · rw [(List.cons.inj h).1] at hletter
        exact hletter rfl
      · exact absurd (List.cons.inj h).1 (by decide)
  · rename_i hchars
    rw [hchars, hfirst fun rest h => ?_, hfirst fun rest h => ?_]
    · cases h
    · exact absurd (List.cons.inj h).1 (by decide)

end Identifier

/-! ## Graphs without colliding types -/

namespace TypeGraph

open Identifier

/-- Whether the node at the key is a type that is called like a root type in camel case. -/
def collides (g : TypeGraph) (key : String) : Bool :=
  match g.node? key with
  | some node => isNamedType g key node && isReserved (camel node.name)
  | none => false

/-- The graph from which such types are absent, with their fields. -/
def withoutCollisions (g : TypeGraph) : TypeGraph :=
  { g with
    nodes := g.nodes.filter fun entry => !g.collides entry.1
    fields := g.fields.filter fun field => !g.collides field.owner
    params := g.params.filter fun key => !g.collides key }

variable {g : TypeGraph}

theorem node?_withoutCollisions (key : String) :
    g.withoutCollisions.node? key = if g.collides key then none else g.node? key := by
  rw [node?, withoutCollisions, Keyed.lookup_filter fun key => !g.collides key]
  cases g.collides key <;> rfl

theorem field?_withoutCollisions (owner name : String) :
    g.withoutCollisions.field? owner name =
      if g.collides owner then none else g.field? owner name := by
  rw [field?, withoutCollisions, List.find?_filter]
  split
  · rename_i howner
    refine List.find?_eq_none.mpr fun field _ hfield => ?_
    simp only [Bool.and_eq_true, beq_iff_eq, decide_eq_true_eq] at hfield
    rw [hfield.2.1, howner] at hfield
    exact Bool.false_ne_true hfield.1
  · rename_i howner
    refine congrArg (List.find? · g.fields) (funext fun field => ?_)
    rw [Bool.eq_iff_iff, decide_eq_true_eq]
    by_cases hfield : field.owner = owner
    · simp [hfield, howner]
    · simp [hfield]

theorem hasFields_withoutCollisions (key : String) :
    g.withoutCollisions.hasFields key = (!g.collides key && g.hasFields key) := by
  rw [Bool.eq_iff_iff, Bool.and_eq_true, hasFields_iff, hasFields_iff]
  simp only [field?_withoutCollisions]
  cases g.collides key <;> simp

/-- What is left is a graph. -/
theorem WellFormed.withoutCollisions (hg : g.WellFormed) : g.withoutCollisions.WellFormed where
  keys_nodup := hg.keys_nodup.sublist (List.filter_sublist.map Prod.fst)
  keyOf_name := by
    intro key node hnode
    rw [node?_withoutCollisions, Option.ite_none_left_eq_some] at hnode
    exact hg.keyOf_name hnode.2
  fields_nodup := hg.fields_nodup.sublist (List.filter_sublist.map _)
  owner_known := by
    intro owner name field hfield
    rw [field?_withoutCollisions, Option.ite_none_left_eq_some] at hfield
    rw [node?_withoutCollisions, if_neg hfield.1]
    exact hg.owner_known hfield.2
  params_nodup := hg.params_nodup.filter _
  mem_params := by
    intro key
    rw [node?_withoutCollisions, TypeGraph.withoutCollisions, List.mem_filter, hg.mem_params]
    cases g.collides key <;> simp
  node_typed := by
    intro key node hnode
    rw [node?_withoutCollisions, Option.ite_none_left_eq_some] at hnode
    exact hg.node_typed hnode.2
  field_typed := by
    intro owner name field hfield
    rw [field?_withoutCollisions, Option.ite_none_left_eq_some] at hfield
    exact hg.field_typed hfield.2

/-! ## Identifiers of the other types -/

theorem types_withoutCollisions (hg : g.WellFormed) :
    g.withoutCollisions.types = g.types.filter fun t => !g.collides t.1 :=
  Keyed.sortEntries_filter hg.keys_nodup _

theorem collides_of_mem (hg : g.WellFormed) {key : String} {node : Node}
    (hmem : (key, node) ∈ g.nodes) :
    g.collides key = (isNamedType g key node && isReserved (camel node.name)) := by
  rw [collides, hg.node?_of_mem hmem]

/-- The types that are left are those with bases that are not reserved. -/
theorem typeBases_withoutCollisions (hg : g.WellFormed) :
    typeBases g.withoutCollisions = (typeBases g).filter fun t => !isReserved t.2 := by
  rw [typeBases, typeBases, types_withoutCollisions hg, List.filter_map, List.filter_filter,
    List.filter_filter]
  refine congrArg _ (List.filter_congr fun entry hentry => ?_)
  have hcollides := collides_of_mem hg (mem_types.mp hentry)
  rw [Function.comp_apply, isReserved_withLetter, isNamedType, hasFields_withoutCollisions,
    hcollides]
  unfold isNamedType
  cases isReserved (camel entry.2.name) <;> cases g.hasFields entry.1 <;>
    cases entry.2.enum?.isSome <;> rfl

/-- Types that do not collide are called as they are where no type does. -/
theorem ident_withoutCollisions (hg : g.WellFormed) {key : String} {node : Node}
    (hmem : (key, node) ∈ g.nodes) (htype : isNamedType g key node = true)
    (hname : isReserved (camel node.name) = false) :
    (Resolver.ofGraph g.withoutCollisions).IsType key ∧
      (Resolver.ofGraph g.withoutCollisions).ident key = (Resolver.ofGraph g).ident key := by
  have hkeeps : g.collides key = false := by
    rw [collides_of_mem hg hmem, hname, Bool.and_false]
  have hleft : (Resolver.ofGraph g.withoutCollisions).IsType key := by
    refine ⟨node, List.mem_filter.mpr ⟨hmem, by rw [hkeeps]; rfl⟩, ?_⟩
    change isNamedType g.withoutCollisions key node = true
    rw [isNamedType, hasFields_withoutCollisions, hkeeps]
    exact htype
  have hplain : Identifier.ofGraph g.withoutCollisions =
      assignFree [root, rootSpec, emptyObject] (typeBases g.withoutCollisions) := by
    rw [Identifier.ofGraph, typeBases_withoutCollisions hg, List.filter_filter, List.filter_filter]
    simp
  obtain ⟨later, hlater⟩ : ∃ later, Identifier.ofGraph g =
      Identifier.ofGraph g.withoutCollisions ++ later := by
    rw [hplain, typeBases_withoutCollisions hg, Identifier.ofGraph]
    exact assignFree_append _ _ _
  refine ⟨hleft, ?_⟩
  obtain ⟨ident, hident⟩ := Resolver.lookup_ofGraph hleft
  rw [Resolver.ident, Resolver.ident, Resolver.ofGraph, Resolver.ofGraph, hlater,
    List.lookup_append, hident]
  rfl

end TypeGraph

end AnnotatedValues
