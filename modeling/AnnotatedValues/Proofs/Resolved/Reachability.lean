import AnnotatedValues.Proofs.Resolved.Resolution
import AnnotatedValues.Resolved.Reach
import Mathlib.Logic.Relation

/-!
# Reached structs

The search goes depth first, with one list of reached structs for all roots.
Whatever a visit adds has its successors among what is reached when the visit
ends, though not before: a struct is listed before its successors are visited.
So the search finds exactly what a chain of successors leads to from a root.  A
visit is never cut short, since the structs that it is inside of are different
nodes that are listed already.
-/

namespace AnnotatedValues.Resolver

/-! ## The structs of a graph -/

variable {r : Resolver}

theorem user?_of_innermost? {t : Resolved} {ref : StructRef} (h : t.innermost? = some ref) :
    t.user? = some (ref.key, ref.ident) := by
  rw [Resolved.innermost?_eq_leaf] at h
  unfold Resolved.user?
  cases hleaf : t.leaf <;> simp [hleaf, Resolved.struct?] at h ⊢
  simp [h]

theorem isType_of_innermost? (hg : r.graph.WellFormed) {slot : Slot} {t : Resolved}
    {ref : StructRef} (h : r.resolveSlot slot = .ok t) (hinner : t.innermost? = some ref) :
    r.IsType ref.key :=
  (isType_of_user? hg h (user?_of_innermost? hinner)).2

theorem mem_successors {key other : String} :
    other ∈ r.successors key ↔ ∃ field ∈ r.graph.fieldsOf key, ∃ t ref,
      r.resolveSlot (.field key field.name) = .ok t ∧ t.innermost? = some ref ∧
        ref.key = other := by
  rw [successors, List.mem_filterMap]
  refine exists_congr fun field => and_congr_right fun _ => ?_
  cases r.resolveSlot (.field key field.name) with
  | error e => simp
  | ok t => simp [Option.map_eq_some_iff]

theorem mem_roots {key : String} :
    key ∈ r.roots ↔
      (∃ param ∈ r.graph.params, ∃ t ref,
        r.resolveSlot (.node param) = .ok t ∧ t.innermost? = some ref ∧ ref.key = key) ∨
      ∃ node, (key, node) ∈ r.graph.nodes ∧ node.isTypedef = true ∧
        r.graph.hasFields key = true := by
  rw [roots, List.mem_append, List.mem_filterMap]
  refine or_congr (exists_congr fun param => and_congr_right fun _ => ?_) ?_
  · cases r.resolveSlot (.node param) with
    | error e => simp
    | ok t => simp [Option.map_eq_some_iff]
  · simp only [List.mem_map, List.mem_filter, Identifier.mem_types, Bool.and_eq_true]
    constructor
    · rintro ⟨entry, ⟨hmem, htypedef, hfields⟩, rfl⟩
      exact ⟨entry.2, hmem, htypedef, hfields⟩
    · rintro ⟨node, hmem, htypedef, hfields⟩
      exact ⟨(key, node), ⟨hmem, htypedef, hfields⟩, rfl⟩

/-- `other` occurs in the type of a field of `key`. -/
def Contains (r : Resolver) (key other : String) : Prop := other ∈ r.successors key

theorem mem_keys_of_isType {key : String} (h : r.IsType key) :
    key ∈ r.graph.nodes.map Prod.fst := by
  obtain ⟨node, hnode, -⟩ := h
  exact List.mem_map.mpr ⟨_, hnode, rfl⟩

/-- The struct inside a type is a node. -/
theorem mem_keys_of_innermost? (hg : r.graph.WellFormed) {slot : Slot} {t : Resolved}
    {ref : StructRef} (h : r.resolveSlot slot = .ok t) (hinner : t.innermost? = some ref) :
    ref.key ∈ r.graph.nodes.map Prod.fst :=
  mem_keys_of_isType (isType_of_innermost? hg h hinner)

theorem isType_of_contains (hg : r.graph.WellFormed) {key other : String}
    (h : r.Contains key other) : r.IsType other := by
  obtain ⟨field, -, t, ref, ht, hinner, rfl⟩ := mem_successors.mp h
  exact isType_of_innermost? hg ht hinner

theorem isType_of_mem_roots (hg : r.graph.WellFormed) {key : String} (h : key ∈ r.roots) :
    r.IsType key := by
  rcases mem_roots.mp h with ⟨param, -, t, ref, ht, hinner, rfl⟩ | ⟨node, hnode, -, hfields⟩
  · exact isType_of_innermost? hg ht hinner
  · exact isType_of_hasFields hg hfields

/-! ## Room for further structs -/

/-- Different structs of the graph are listed, and there are levels left for all others. -/
structure Room (r : Resolver) (levels : Nat) (listed : List String) : Prop where
  nodup : listed.Nodup
  known : ∀ key ∈ listed, key ∈ r.graph.nodes.map Prod.fst
  levels : r.graph.nodes.length < levels + listed.length

namespace Room

variable {levels : Nat} {listed : List String}

theorem empty (h : r.graph.nodes.length < levels) : r.Room levels [] :=
  ⟨List.nodup_nil, List.forall_mem_nil _, h⟩

theorem length_le (h : r.Room levels listed) : listed.length ≤ r.graph.nodes.length := by
  have hlength := (h.nodup.subperm h.known).length_le
  rwa [List.length_map] at hlength

theorem not_zero (h : r.Room 0 listed) : False := by
  have hlength := h.length_le
  have hlevels := h.levels
  omega

theorem push (h : r.Room (levels + 1) listed) {key : String}
    (hkey : key ∈ r.graph.nodes.map Prod.fst) (hfresh : key ∉ listed) :
    r.Room levels (key :: listed) where
  nodup := List.nodup_cons.mpr ⟨hfresh, h.nodup⟩
  known := List.forall_mem_cons.mpr ⟨hkey, h.known⟩
  levels := by
    have hlevels := h.levels
    rw [List.length_cons]
    omega

theorem succ (h : r.Room levels listed) : r.Room (levels + 1) listed where
  nodup := h.nodup
  known := h.known
  levels := by
    have hlevels := h.levels
    omega

end Room

/-! ## Visits -/

/-- A search keeps what was reached before, and follows whatever it adds. -/
structure Searched (r : Resolver) (reached found : List String) : Prop where
  keeps : reached ⊆ found
  follows : ∀ {key other}, key ∈ found → key ∉ reached → r.Contains key other → other ∈ found

theorem Searched.refl (r : Resolver) (reached : List String) : r.Searched reached reached where
  keeps := List.Subset.refl _
  follows hkey hnew _ := absurd hkey hnew

variable {reached between found : List String} {levels : Nat} {key : String}

theorem Searched.trans (h : r.Searched reached between) (h' : r.Searched between found) :
    r.Searched reached found where
  keeps := List.Subset.trans h.keeps h'.keeps
  follows := by
    intro key other hkey hnew hedge
    by_cases hbetween : key ∈ between
    · exact h'.keeps (h.follows hbetween hnew hedge)
    · exact h'.follows hkey hbetween hedge

/-- What a visit to each of some keys does, their visits one after another do. -/
theorem searched_foldl {visits : List String → String → List String} (keys : List String)
    (hvisit : ∀ {reached key}, key ∈ keys → r.Room levels reached →
      key ∈ visits reached key ∧ r.Searched reached (visits reached key) ∧
        r.Room levels (visits reached key))
    (hroom : r.Room levels reached) :
    keys ⊆ keys.foldl visits reached ∧ r.Searched reached (keys.foldl visits reached) ∧
      r.Room levels (keys.foldl visits reached) := by
  induction keys generalizing reached with
  | nil => exact ⟨List.nil_subset _, .refl r reached, hroom⟩
  | cons key keys ih =>
      obtain ⟨hkey, hfirst, hafter⟩ := hvisit List.mem_cons_self hroom
      obtain ⟨hkeys, hrest, hend⟩ := ih (fun hmem => hvisit (List.mem_cons_of_mem _ hmem)) hafter
      exact ⟨List.cons_subset.mpr ⟨hrest.keeps hkey, hkeys⟩, hfirst.trans hrest, hend⟩

/-- By induction on the levels: between the listing of a struct and the end of its visit, its
successors are visited one level below. -/
theorem searched_visit (hg : r.graph.WellFormed) (hkey : key ∈ r.graph.nodes.map Prod.fst)
    (hroom : r.Room levels reached) :
    key ∈ visit r.successors levels reached key ∧
      r.Searched reached (visit r.successors levels reached key) ∧
        r.Room levels (visit r.successors levels reached key) := by
  induction levels generalizing reached key with
  | zero => exact hroom.not_zero.elim
  | succ levels ih =>
      rw [visit]
      split
      · rename_i hold
        exact ⟨List.contains_iff_mem.mp hold, .refl r reached, hroom⟩
      · rename_i hnew
        rw [List.contains_iff_mem] at hnew
        obtain ⟨hsuccessors, hsearched, hend⟩ := searched_foldl (r.successors key)
          (fun hedge => ih (mem_keys_of_isType (isType_of_contains hg hedge)))
          (hroom.push hkey hnew)
        refine ⟨hsearched.keeps List.mem_cons_self, ⟨?_, ?_⟩, hend.succ⟩
        · exact List.Subset.trans (List.subset_cons_self _ _) hsearched.keeps
        · intro listed other hlisted hadded hedge
          by_cases hsame : listed = key
          · exact hsuccessors (hsame ▸ hedge)
          · exact hsearched.follows hlisted (by simp [hsame, hadded]) hedge

/-- Whatever holds of the structs that are visited and passes to successors holds of all that is
reached. -/
theorem visit_induction {motive : String → Prop}
    (step : ∀ {key other}, motive key → r.Contains key other → motive other)
    (hreached : ∀ other ∈ reached, motive other) (hkey : motive key) :
    ∀ other ∈ visit r.successors levels reached key, motive other := by
  induction levels generalizing reached key with
  | zero => exact hreached
  | succ levels ih =>
      rw [visit]
      split
      · exact hreached
      · refine List.foldlRecOn (r.successors key) (visit r.successors levels)
          (motive := fun found => ∀ other ∈ found, motive other)
          (List.forall_mem_cons.mpr ⟨hkey, hreached⟩) ?_
        intro found hfound other hother
        exact ih hfound (step hkey hother)

/-! ## The search -/

/-- Whatever holds of the roots and passes to the structs in types of fields holds of all that is
reached. -/
theorem reached_induction {motive : String → Prop} (hroots : ∀ root ∈ r.roots, motive root)
    (step : ∀ {key other}, motive key → r.Contains key other → motive other) :
    ∀ key ∈ r.reached, motive key := by
  refine List.foldlRecOn r.roots _ (motive := fun found => ∀ key ∈ found, motive key)
    (List.forall_mem_nil _) ?_
  intro found hfound root hroot
  exact visit_induction step hfound (hroots root hroot)

theorem isType_of_mem_reached (hg : r.graph.WellFormed) {key : String} (h : key ∈ r.reached) :
    r.IsType key :=
  reached_induction (motive := r.IsType) (fun _ => isType_of_mem_roots hg)
    (fun _ => isType_of_contains hg) key h

/-- All roots are reached, and so is whatever a type of a field leads to from there. -/
theorem searched_reached (hg : r.graph.WellFormed) :
    r.roots ⊆ r.reached ∧ r.Searched [] r.reached := by
  obtain ⟨hroots, hsearched, -⟩ := searched_foldl r.roots
    (fun hroot => searched_visit hg (mem_keys_of_isType (isType_of_mem_roots hg hroot)))
    (.empty (Nat.lt_succ_self _))
  exact ⟨hroots, hsearched⟩

theorem mem_reached_of_mem_roots (hg : r.graph.WellFormed) {key : String} (h : key ∈ r.roots) :
    key ∈ r.reached :=
  (searched_reached hg).1 h

theorem mem_reached_of_contains (hg : r.graph.WellFormed) {key other : String}
    (hkey : key ∈ r.reached) (h : r.Contains key other) : other ∈ r.reached :=
  (searched_reached hg).2.follows hkey List.not_mem_nil h

/-- Exactly those structs are reached that a root leads to. -/
theorem mem_reached_iff (hg : r.graph.WellFormed) {key : String} :
    key ∈ r.reached ↔ ∃ root ∈ r.roots, Relation.ReflTransGen r.Contains root key := by
  constructor
  · intro h
    refine reached_induction
      (motive := fun k => ∃ root ∈ r.roots, Relation.ReflTransGen r.Contains root k) ?_ ?_ key h
    · intro root hroot
      exact ⟨root, hroot, .refl⟩
    · rintro k other ⟨root, hroot, hpath⟩ hedge
      exact ⟨root, hroot, hpath.tail hedge⟩
  · rintro ⟨root, hroot, hpath⟩
    induction hpath with
    | refl => exact mem_reached_of_mem_roots hg hroot
    | tail _ hedge ih => exact mem_reached_of_contains hg ih hedge

end AnnotatedValues.Resolver
