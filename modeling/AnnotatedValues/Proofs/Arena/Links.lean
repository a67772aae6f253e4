import AnnotatedValues.Graph.Arena
import AnnotatedValues.Proofs.Keyed
import Mathlib.Data.List.Induction

/-!
# Links between cells

Parents, children and the index say the same thing three times.  Each operation
on an arena is described by what it does to these and to the names of cells.
That parents and children agree is `Tree`, and that the index and the parameters
agree with them is `Linked`, which holds from the empty arena on, also in the
middle of a row.
-/

namespace AnnotatedValues.Arena

variable {a a' : Arena} {id parent other : Id} {key name : String} {c : Cell}

/-! ## Maps -/

section

variable {α : Type} {entries : List (String × α)} {value : α}

theorem nodup_keys_put (h : (entries.map Prod.fst).Nodup) :
    ((put entries key value).map Prod.fst).Nodup := by
  rw [put, List.map_append, List.map_singleton, Keyed.nodup_append_singleton_iff]
  refine ⟨fun hmem => ?_, h.sublist (List.filter_sublist.map _)⟩
  obtain ⟨entry, hentry, hkey⟩ := List.mem_map.mp hmem
  exact bne_iff_ne.mp (List.mem_filter.mp hentry).2 hkey

theorem lookup_put : (put entries key value).lookup name =
    if name = key then some value else entries.lookup name := by
  rw [put, List.lookup_append, Keyed.lookup_filter (· != key), List.lookup_cons, List.lookup_nil]
  by_cases hname : name = key
  · simp [hname]
  · simp [hname, beq_false_of_ne hname]

/-- A new key leaves the entries there are. -/
theorem put_eq_append (h : entries.lookup key = none) :
    put entries key value = entries ++ [(key, value)] := by
  rw [put, List.filter_eq_self.mpr]
  intro entry hentry
  rw [bne_iff_ne]
  rintro rfl
  have hne := List.lookup_eq_none_iff.mp h entry hentry
  simp at hne

/-- Of several entries of a key that are put into a map, the last is found. -/
theorem lookup_foldl_put (entries : List (String × α)) :
    (entries.foldl (fun map entry => put map entry.1 entry.2) []).lookup key =
      entries.reverse.lookup key := by
  induction entries using List.reverseRecOn with
  | nil => rfl
  | append_singleton entries entry ih =>
      rw [List.foldl_append, List.foldl_cons, List.foldl_nil, lookup_put, ih, List.reverse_append,
        List.reverse_singleton, List.singleton_append, List.lookup_cons]
      by_cases hkey : key = entry.1
      · rw [if_pos hkey, hkey, beq_self_eq_true]
      · rw [if_neg hkey, beq_false_of_ne hkey]

end

/-! ## What changes of nodes leave -/

section

variable (a) (id) (f : Node → Node)

theorem getElem?_updateNode (other : Id) : (a.updateNode id f).cells[other]? =
    if other = id then a.cells[other]?.map fun c => { c with node := f c.node }
    else a.cells[other]? := by
  rw [updateNode, List.getElem?_modify]
  by_cases hother : id = other
  · simp [hother]
  · simp [hother, Ne.symm hother]

@[simp] theorem length_updateNode : (a.updateNode id f).cells.length = a.cells.length :=
  List.length_modify _ _ _

@[simp] theorem parent?_updateNode : (a.updateNode id f).parent? = a.parent? := by
  funext other
  rw [parent?, getElem?_updateNode, parent?]
  split
  · rw [Option.bind_map]
    rfl
  · rfl

@[simp] theorem childrenOf_updateNode : (a.updateNode id f).childrenOf = a.childrenOf := by
  funext other
  rw [childrenOf, getElem?_updateNode, childrenOf]
  split
  · rw [Option.map_map]
    rfl
  · rfl

theorem nameOf_updateNode_of_ne (h : other ≠ id) :
    (a.updateNode id f).nameOf other = a.nameOf other := by
  rw [nameOf, getElem?_updateNode, if_neg h, nameOf]

variable {a} {id} {f}

theorem nameOf_updateNode (hf : ∀ n, (f n).name = n.name) :
    (a.updateNode id f).nameOf = a.nameOf := by
  funext other
  rw [nameOf, getElem?_updateNode, nameOf]
  split
  · rw [Option.map_map]
    simp only [Function.comp_def, hf]
  · rfl

theorem keyAt_updateNode
    (hf : ∀ c, a.cells[id]? = some c → keyOf (f c.node).name = keyOf c.node.name) :
    (a.updateNode id f).keyAt = a.keyAt := by
  funext other
  by_cases hother : other = id
  · subst hother
    rw [keyAt, keyAt, nameOf, nameOf, getElem?_updateNode, if_pos rfl]
    cases hc : a.cells[other]? with
    | none => rfl
    | some c => exact hf c hc
  · rw [keyAt, nameOf_updateNode_of_ne a id f hother, keyAt]

@[simp] theorem nameOf_updateMember (f : Member → Member) :
    (a.updateMember id f).nameOf = a.nameOf :=
  nameOf_updateNode fun _ => rfl

@[simp] theorem keyAt_updateMember (f : Member → Member) :
    (a.updateMember id f).keyAt = a.keyAt :=
  keyAt_updateNode fun _ _ => rfl

end

/-! ## What a new cell changes -/

theorem parent?_of_getElem? (hc : a.cells[id]? = some c) : a.parent? id = c.parent? := by
  rw [parent?, hc, Option.bind_some]

theorem nameOf_of_getElem? (hc : a.cells[id]? = some c) : a.nameOf id = c.node.name := by
  rw [nameOf, hc]
  rfl

theorem childrenOf_of_getElem? (hc : a.cells[id]? = some c) : a.childrenOf id = c.children := by
  rw [childrenOf, hc]
  rfl

theorem exists_cell_of_parent? (h : a.parent? id = some parent) :
    ∃ c, a.cells[id]? = some c ∧ c.parent? = some parent :=
  Option.bind_eq_some_iff.mp h

theorem lt_length_of_parent? (h : a.parent? id = some parent) : id < a.cells.length := by
  obtain ⟨c, hc, -⟩ := exists_cell_of_parent? h
  exact (List.getElem?_eq_some_iff.mp hc).1

theorem parent?_of_length_le (h : a.cells.length ≤ id) : a.parent? id = none := by
  rw [parent?, List.getElem?_eq_none h]
  rfl

section

variable (a) (key) (name)

@[simp] theorem length_push : (a.push parent key name).cells.length = a.cells.length + 1 := by
  rw [push, List.length_modify, List.length_append]
  rfl

theorem getElem?_push (other : Id) : (a.push parent key name).cells[other]? =
    (a.cells ++ [⟨.named name, some parent, []⟩])[other]?.map fun c =>
      if parent = other then { c with children := put c.children key a.cells.length } else c := by
  rw [push, List.getElem?_modify]
  rfl

/-- The new cell stands last. -/
theorem getElem?_push_length (h : parent < a.cells.length) :
    (a.push parent key name).cells[a.cells.length]? = some ⟨.named name, some parent, []⟩ := by
  rw [getElem?_push, List.getElem?_concat_length, Option.map_some, if_neg (Nat.ne_of_lt h)]

/-- The cells there were get a child at most. -/
theorem getElem?_push_of_lt (h : other < a.cells.length) :
    (a.push parent key name).cells[other]? = a.cells[other]?.map fun c =>
      if parent = other then { c with children := put c.children key a.cells.length } else c := by
  rw [getElem?_push, List.getElem?_append_left h]

variable {a} {key} {name} in
/-- A cell is one that was there, but for its children, or the new one. -/
theorem eq_or_of_getElem?_push (h : parent < a.cells.length)
    (hc : (a.push parent key name).cells[id]? = some c) :
    (∃ old, a.cells[id]? = some old ∧ c.node = old.node ∧ c.parent? = old.parent?) ∨
      id = a.cells.length ∧ c = ⟨.named name, some parent, []⟩ := by
  by_cases hid : id < a.cells.length
  · rw [getElem?_push_of_lt a key name hid] at hc
    obtain ⟨old, hold, rfl⟩ := Option.map_eq_some_iff.mp hc
    refine Or.inl ⟨old, hold, ?_⟩
    split <;> exact ⟨rfl, rfl⟩
  · have hlast : id = a.cells.length := by
      have hbound := (List.getElem?_eq_some_iff.mp hc).1
      rw [length_push] at hbound
      exact Nat.le_antisymm (Nat.le_of_lt_succ hbound) (Nat.not_lt.mp hid)
    rw [hlast, getElem?_push_length a key name h] at hc
    exact Or.inr ⟨hlast, (Option.some.inj hc).symm⟩

theorem parent?_push (h : parent < a.cells.length) (other : Id) :
    (a.push parent key name).parent? other =
      if other = a.cells.length then some parent else a.parent? other := by
  by_cases hother : other < a.cells.length
  · rw [if_neg (Nat.ne_of_lt hother), parent?, getElem?_push_of_lt a key name hother, parent?,
      Option.bind_map]
    refine Option.bind_congr fun c _ => ?_
    rw [Function.comp_apply]
    split <;> rfl
  · by_cases hlast : other = a.cells.length
    · rw [if_pos hlast, hlast, parent?_of_getElem? (getElem?_push_length a key name h)]
    · have hbeyond : a.cells.length + 1 ≤ other :=
        Nat.lt_of_le_of_ne (Nat.not_lt.mp hother) (Ne.symm hlast)
      rw [if_neg hlast, parent?_of_length_le (by rw [length_push]; exact hbeyond),
        parent?_of_length_le (Nat.not_lt.mp hother)]

theorem nameOf_push_of_lt (hother : other < a.cells.length) :
    (a.push parent key name).nameOf other = a.nameOf other := by
  rw [nameOf, getElem?_push_of_lt a key name hother, nameOf, Option.map_map]
  congr 2
  funext c
  rw [Function.comp_apply]
  split <;> rfl

theorem nameOf_push_length (h : parent < a.cells.length) :
    (a.push parent key name).nameOf a.cells.length = name :=
  nameOf_of_getElem? (getElem?_push_length a key name h)

theorem childrenOf_push (h : parent < a.cells.length) (other : Id) :
    (a.push parent key name).childrenOf other =
      if other = parent then put (a.childrenOf other) key a.cells.length
      else a.childrenOf other := by
  by_cases hother : other < a.cells.length
  · have hc := List.getElem?_eq_getElem hother
    have hc' := @getElem?_push_of_lt a parent other key name hother
    rw [hc, Option.map_some] at hc'
    rw [childrenOf_of_getElem? hc, childrenOf_of_getElem? hc']
    by_cases hat : other = parent
    · rw [if_pos hat.symm, if_pos hat]
    · rw [if_neg (Ne.symm hat), if_neg hat]
  · have hne : other ≠ parent := by
      rintro rfl
      exact hother h
    have hnone : a.childrenOf other = [] := by
      rw [childrenOf, List.getElem?_eq_none (Nat.not_lt.mp hother)]
      rfl
    rw [if_neg hne, hnone]
    by_cases hlast : other = a.cells.length
    · rw [hlast, childrenOf_of_getElem? (getElem?_push_length a key name h)]
    · rw [childrenOf, List.getElem?_eq_none]
      · rfl
      · rw [length_push]
        exact Nat.lt_of_le_of_ne (Nat.not_lt.mp hother) (Ne.symm hlast)

variable {a} {key}

theorem mem_childrenOf_push (h : parent < a.cells.length) (hnew : a.child? parent key = none)
    {k : String} : (k, id) ∈ (a.push parent key name).childrenOf other ↔
      (k, id) ∈ a.childrenOf other ∨ other = parent ∧ k = key ∧ id = a.cells.length := by
  rw [childrenOf_push a key name h]
  by_cases hother : other = parent
  · subst hother
    rw [if_pos rfl, put_eq_append hnew, List.mem_append, List.mem_singleton, Prod.mk.injEq]
    simp
  · simp [hother]

end

/-- The key under which a parent has a child. -/
def entryKey (a : Arena) (parent id : Id) : String :=
  if parent = root then a.keyAt id else a.nameOf id

/-! ## Cells that stay where they are -/

/-- The second arena has the cells of the first, with the same parents and names. -/
structure Grows (a a' : Arena) : Prop where
  parent?_eq : ∀ {id parent}, a.parent? id = some parent → a'.parent? id = some parent
  nameOf_eq : ∀ {id parent}, a.parent? id = some parent → a'.nameOf id = a.nameOf id

namespace Grows

theorem refl (a : Arena) : a.Grows a := ⟨fun h => h, fun _ => rfl⟩

theorem trans {a a' a'' : Arena} (h : a.Grows a') (h' : a'.Grows a'') : a.Grows a'' where
  parent?_eq hid := h'.parent?_eq (h.parent?_eq hid)
  nameOf_eq hid := (h'.nameOf_eq (h.parent?_eq hid)).trans (h.nameOf_eq hid)

theorem keyAt_eq (h : a.Grows a') (hid : a.parent? id = some parent) : a'.keyAt id = a.keyAt id := by
  rw [keyAt, h.nameOf_eq hid, keyAt]

theorem entryKey_eq (h : a.Grows a') (hid : a.parent? id = some parent) :
    a'.entryKey parent id = a.entryKey parent id := by
  rw [entryKey, h.keyAt_eq hid, h.nameOf_eq hid, entryKey]

end Grows

theorem grows_updateMember (a : Arena) (id : Id) (f : Member → Member) :
    a.Grows (a.updateMember id f) where
  parent?_eq hid := by
    rw [updateMember, parent?_updateNode]
    exact hid
  nameOf_eq _ := by rw [nameOf_updateMember]

theorem grows_push (h : parent < a.cells.length) (key name : String) :
    a.Grows (a.push parent key name) where
  parent?_eq hid := by
    rw [parent?_push a key name h, if_neg (Nat.ne_of_lt (lt_length_of_parent? hid))]
    exact hid
  nameOf_eq hid := nameOf_push_of_lt a key name (lt_length_of_parent? hid)

/-! ## Trees -/

/-- The cells are a tree of nodes and fields, in which parents and children agree. -/
structure Tree (a : Arena) : Prop where
  root_known : root < a.cells.length
  root_top : a.parent? root = none
  children_nodup : ∀ parent, ((a.childrenOf parent).map Prod.fst).Nodup
  mem_children : ∀ {parent key id}, (key, id) ∈ a.childrenOf parent ↔
    a.parent? id = some parent ∧ a.entryKey parent id = key
  parent_lt : ∀ {id parent}, a.parent? id = some parent → parent < id
  near_root : ∀ {id : Id}, id < a.cells.length → id ≠ root →
    a.parent? id = some root ∨ ∃ parent, a.parent? id = some parent ∧ a.parent? parent = some root

namespace Tree

/-- Only the cells count. -/
theorem of_cells (h : a.Tree) (hcells : a.cells = a'.cells) : a'.Tree := by
  obtain ⟨cells, index, params, diagnostics⟩ := a
  obtain ⟨cells', index', params', diagnostics'⟩ := a'
  cases hcells
  exact ⟨h.root_known, h.root_top, h.children_nodup, h.mem_children, h.parent_lt, h.near_root⟩

theorem ne_root (h : a.Tree) (hid : a.parent? id = some parent) : id ≠ root := by
  rintro rfl
  rw [h.root_top] at hid
  cases hid

theorem eq_root_or (h : a.Tree) (hid : a.parent? id = some parent) :
    parent = root ∨ a.parent? parent = some root := by
  rcases h.near_root (lt_length_of_parent? hid) (h.ne_root hid) with hroot | ⟨other, hother, htop⟩
  · rw [hroot] at hid
    exact Or.inl (Option.some.inj hid).symm
  · rw [hother] at hid
    exact Or.inr (Option.some.inj hid ▸ htop)

theorem lt_length (h : a.Tree) (hparent : parent = root ∨ a.parent? parent = some root) :
    parent < a.cells.length := by
  rcases hparent with rfl | hroot
  · exact h.root_known
  · exact lt_length_of_parent? hroot

theorem child?_eq_some_iff (h : a.Tree) : a.child? parent key = some id ↔
    a.parent? id = some parent ∧ a.entryKey parent id = key := by
  rw [← h.mem_children]
  exact ⟨Keyed.mem_of_lookup, Keyed.lookup_of_mem (h.children_nodup parent)⟩

/-- Nodes are told apart by their keys. -/
theorem eq_of_keyAt (h : a.Tree) (hid : a.parent? id = some root)
    (hother : a.parent? other = some root) (hkey : a.keyAt id = a.keyAt other) : id = other := by
  have hfound := h.child?_eq_some_iff.mpr ⟨hid, hkey⟩
  have hfound' := h.child?_eq_some_iff.mpr ⟨hother, rfl⟩
  exact Option.some.inj (hfound.symm.trans hfound')

/-- A change of a cell that leaves its key, and of a field its name. -/
theorem updateNode (h : a.Tree) {f : Node → Node}
    (hkey : ∀ c, a.cells[id]? = some c → keyOf (f c.node).name = keyOf c.node.name)
    (hname : a.parent? id = some root ∨ ∀ n, (f n).name = n.name) : (a.updateNode id f).Tree := by
  have hentry : ∀ {parent other}, a.parent? other = some parent →
      (a.updateNode id f).entryKey parent other = a.entryKey parent other := by
    intro parent other hother
    rw [entryKey, entryKey, keyAt_updateNode hkey]
    split
    · rfl
    · rename_i hparent
      rcases hname with hid | hf
      · refine nameOf_updateNode_of_ne a id f ?_
        rintro rfl
        rw [hid] at hother
        exact hparent (Option.some.inj hother).symm
      · rw [nameOf_updateNode hf]
  refine {
    root_known := ?_, root_top := ?_, children_nodup := ?_, mem_children := ?_, parent_lt := ?_,
    near_root := ?_ }
  · rw [length_updateNode]
    exact h.root_known
  · rw [parent?_updateNode]
    exact h.root_top
  · rw [childrenOf_updateNode]
    exact h.children_nodup
  · intro parent key other
    rw [childrenOf_updateNode, parent?_updateNode, h.mem_children]
    exact and_congr_right fun hother => by rw [hentry hother]
  · rw [parent?_updateNode]
    exact h.parent_lt
  · rw [parent?_updateNode, length_updateNode]
    exact h.near_root

section

variable (h : a.Tree) (hparent : parent = root ∨ a.parent? parent = some root)

include h hparent

theorem mem_children_push (hkey : key = if parent = root then keyOf name else name)
    (hnew : a.child? parent key = none) {k : String} :
    (k, id) ∈ (a.push parent key name).childrenOf other ↔
      (a.push parent key name).parent? id = some other ∧
        (a.push parent key name).entryKey other id = k := by
  have hlt := h.lt_length hparent
  have hgrows := grows_push hlt key name
  have hlast : (a.push parent key name).entryKey parent a.cells.length = key := by
    rw [entryKey, keyAt, nameOf_push_length a key name hlt, hkey]
  rw [mem_childrenOf_push name hlt hnew, h.mem_children, parent?_push a key name hlt]
  -- The new cell had no parent before, and the others keep theirs.
  by_cases hid : id = a.cells.length
  · subst hid
    rw [parent?_of_length_le Nat.le.refl, if_pos rfl, Option.some.injEq]
    constructor
    · rintro (⟨hnone, -⟩ | ⟨rfl, rfl, -⟩)
      · cases hnone
      · exact ⟨rfl, hlast⟩
    · rintro ⟨rfl, rfl⟩
      exact Or.inr ⟨rfl, hlast, rfl⟩
  · rw [if_neg hid]
    constructor
    · rintro (⟨hother, rfl⟩ | ⟨-, -, hlast'⟩)
      · exact ⟨hother, hgrows.entryKey_eq hother⟩
      · exact absurd hlast' hid
    · rintro ⟨hother, rfl⟩
      exact Or.inl ⟨hother, (hgrows.entryKey_eq hother).symm⟩

theorem near_root_push (hid : id < a.cells.length + 1) (hne : id ≠ root) :
    (a.push parent key name).parent? id = some root ∨ ∃ other,
      (a.push parent key name).parent? id = some other ∧
        (a.push parent key name).parent? other = some root := by
  have hlt := h.lt_length hparent
  have hgrows := grows_push hlt key name
  rw [parent?_push a key name hlt]
  by_cases hlast : id = a.cells.length
  · rw [if_pos hlast]
    rcases hparent with rfl | hroot
    · exact Or.inl rfl
    · exact Or.inr ⟨parent, rfl, hgrows.parent?_eq hroot⟩
  · rw [if_neg hlast]
    have hold := Nat.lt_of_le_of_ne (Nat.le_of_lt_succ hid) hlast
    rcases h.near_root hold hne with hroot | ⟨other, hother, hroot⟩
    · exact Or.inl hroot
    · exact Or.inr ⟨other, hother, hgrows.parent?_eq hroot⟩

/-- A new child of the root or of a node, under a key that no other has. -/
theorem push (hkey : key = if parent = root then keyOf name else name)
    (hnew : a.child? parent key = none) : (a.push parent key name).Tree := by
  have hlt := h.lt_length hparent
  refine {
    root_known := ?_, root_top := ?_, children_nodup := ?_,
    mem_children := h.mem_children_push hparent hkey hnew, parent_lt := ?_, near_root := ?_ }
  · rw [length_push]
    exact Nat.succ_pos _
  · rw [parent?_push a key name hlt, if_neg (Nat.ne_of_lt h.root_known)]
    exact h.root_top
  · intro other
    rw [childrenOf_push a key name hlt]
    split
    · exact nodup_keys_put (h.children_nodup other)
    · exact h.children_nodup other
  · intro id other hid
    rw [parent?_push a key name hlt] at hid
    split at hid
    · rename_i hlast
      cases hid
      exact hlast ▸ hlt
    · exact h.parent_lt hid
  · rw [length_push]
    exact h.near_root_push hparent

end

end Tree

/-! ## Linked arenas -/

/-- The index and the parameters agree with the tree of cells. -/
structure Linked (a : Arena) : Prop extends Tree a where
  index_eq : a.index = a.childrenOf root
  params_below : ∀ {id}, id ∈ a.params → a.parent? id = some root
  /-- Only nodes are marked as parameters. -/
  marked_below : ∀ {id : Id} {c : Cell}, a.cells[id]? = some c → c.node.isParam = true →
    c.parent? = some root
  root_untyped : ∀ {c : Cell}, a.cells[root]? = some c → c.node.member.type? = none

namespace Linked

theorem lookup?_eq_some_iff (h : a.Linked) : a.lookup? name = some id ↔
    a.parent? id = some root ∧ a.keyAt id = keyOf name := by
  rw [lookup?, h.index_eq]
  exact h.child?_eq_some_iff

theorem empty : Linked Arena.empty := by
  have hcell : ∀ {id : Id} {c : Cell}, Arena.empty.cells[id]? = some c →
      id = root ∧ c = ⟨.named "Config", none, []⟩ := by
    intro id c hc
    cases id with
    | zero => exact ⟨rfl, (Option.some.inj hc).symm⟩
    | succ n => cases hc
  have hparent : ∀ {id parent}, Arena.empty.parent? id ≠ some parent := by
    intro id parent hid
    obtain ⟨c, hc, hsome⟩ := exists_cell_of_parent? hid
    rw [(hcell hc).2] at hsome
    cases hsome
  have hchildren : ∀ id, Arena.empty.childrenOf id = [] := by
    intro id
    cases hc : Arena.empty.cells[id]? with
    | none => rw [childrenOf, hc]; rfl
    | some c => rw [childrenOf_of_getElem? hc, (hcell hc).2]
  refine {
    root_known := Nat.zero_lt_one, root_top := rfl, children_nodup := ?_, mem_children := ?_,
    parent_lt := fun hid => absurd hid hparent, near_root := ?_, index_eq := rfl,
    params_below := ?_, marked_below := ?_, root_untyped := ?_ }
  · intro parent
    rw [hchildren]
    exact List.nodup_nil
  · intro parent key id
    rw [hchildren]
    exact ⟨fun hmem => (List.not_mem_nil hmem).elim, fun hid => absurd hid.1 hparent⟩
  · intro id hid hne
    exact absurd (Nat.lt_one_iff.mp hid) hne
  · intro id hid
    cases hid
  · intro id c hc hmarked
    rw [(hcell hc).2] at hmarked
    cases hmarked
  · intro c hc
    rw [(hcell hc).2]
    rfl

/-- A change of a cell that leaves its key, of a field its name and that it is no parameter, and of
the root that it has no type. -/
theorem updateNode (h : a.Linked) {f : Node → Node}
    (hkey : ∀ c, a.cells[id]? = some c → keyOf (f c.node).name = keyOf c.node.name)
    (hfield : a.parent? id = some root ∨ ∀ n, (f n).name = n.name ∧ (f n).isParam = n.isParam)
    (hroot : id ≠ root ∨ ∀ n, (f n).member.type? = n.member.type?) :
    (a.updateNode id f).Linked := by
  refine {
    toTree := h.toTree.updateNode hkey (hfield.imp_right fun hf n => (hf n).1)
    index_eq := ?_, params_below := ?_, marked_below := ?_, root_untyped := ?_ }
  · rw [childrenOf_updateNode]
    exact h.index_eq
  · rw [parent?_updateNode]
    exact h.params_below
  · intro other c hc hmarked
    rw [getElem?_updateNode] at hc
    split at hc
    · rename_i hother
      subst hother
      obtain ⟨old, hold, rfl⟩ := Option.map_eq_some_iff.mp hc
      have hparent : old.parent? = some root := by
        rcases hfield with hid | hf
        · exact (parent?_of_getElem? hold).symm.trans hid
        · exact h.marked_below hold ((hf old.node).2.symm.trans hmarked)
      exact hparent
    · exact h.marked_below hc hmarked
  · intro c hc
    rw [getElem?_updateNode] at hc
    split at hc
    · rename_i hat
      obtain ⟨old, hold, rfl⟩ := Option.map_eq_some_iff.mp hc
      exact (hroot.resolve_left (not_not_intro hat.symm) old.node).trans (h.root_untyped hold)
    · exact h.root_untyped hc

theorem updateMember (h : a.Linked) {f : Member → Member}
    (hroot : id ≠ root ∨ ∀ m, (f m).type? = m.type?) : (a.updateMember id f).Linked :=
  h.updateNode (fun _ _ => rfl) (Or.inr fun _ => ⟨rfl, rfl⟩)
    (hroot.imp_right fun hf n => hf n.member)

theorem ensureParam (h : a.Linked) (hid : a.parent? id = some root) :
    (a.ensureParam id).Linked := by
  unfold Arena.ensureParam
  split
  · exact h
  · refine { h with toTree := h.toTree.of_cells rfl, params_below := ?_ }
    intro other hother
    rcases List.mem_append.mp hother with hold | hnew
    · exact h.params_below hold
    · rw [List.mem_singleton] at hnew
      exact hnew ▸ hid

/-- A new child of the root or of a node. Below the root it also gets into the index. -/
theorem push (h : a.Linked) (hparent : parent = root ∨ a.parent? parent = some root)
    (hkey : key = if parent = root then keyOf name else name)
    (hnew : a.child? parent key = none) {index : List (String × Id)}
    (hindex : index = if parent = root then put a.index key a.cells.length else a.index) :
    Linked { a.push parent key name with index } := by
  have hlt := h.lt_length hparent
  refine {
    toTree := (h.toTree.push hparent hkey hnew).of_cells rfl
    index_eq := ?_, params_below := ?_, marked_below := ?_, root_untyped := ?_ }
  · refine hindex.trans (Eq.trans ?_ (childrenOf_push a key name hlt root).symm)
    rw [h.index_eq]
    exact if_congr eq_comm rfl rfl
  · intro id hid
    exact (grows_push hlt key name).parent?_eq (h.params_below hid)
  · intro id c hc hmarked
    rcases eq_or_of_getElem?_push hlt hc with ⟨old, hold, hnode, hparent'⟩ | ⟨-, rfl⟩
    · rw [hnode] at hmarked
      rw [hparent']
      exact h.marked_below hold hmarked
    · cases hmarked
  · intro c hc
    rcases eq_or_of_getElem?_push hlt hc with ⟨old, hold, hnode, -⟩ | ⟨-, rfl⟩
    · rw [hnode]
      exact h.root_untyped hold
    · rfl

end Linked

/-! ## Nodes and fields that are needed -/

theorem ensureNode_of_none (h : a.lookup? name = none) :
    a.ensureNode name = ({ a.push root (keyOf name) name with
      index := put a.index (keyOf name) a.cells.length }, a.cells.length) := by
  rw [ensureNode, h]

theorem ensureNode_of_some (h : a.lookup? name = some id) : a.ensureNode name = (a, id) := by
  rw [ensureNode, h]

theorem ensureField_of_none (h : a.child? parent name = none) :
    a.ensureField parent name = (a.push parent name name, a.cells.length) := by
  rw [ensureField, h]

theorem ensureField_of_some (h : a.child? parent name = some id) :
    a.ensureField parent name = (a, id) := by
  rw [ensureField, h]

theorem grows_ensureField (hparent : a.parent? parent = some root) (name : String) :
    a.Grows (a.ensureField parent name).1 := by
  cases hid : a.child? parent name with
  | some id =>
      rw [ensureField_of_some hid]
      exact .refl a
  | none =>
      rw [ensureField_of_none hid]
      exact grows_push (lt_length_of_parent? hparent) name name

namespace Linked

theorem ensureNode (h : a.Linked) (name : String) : (a.ensureNode name).1.Linked := by
  cases hid : a.lookup? name with
  | some id =>
      rw [ensureNode_of_some hid]
      exact h
  | none =>
      rw [ensureNode_of_none hid]
      rw [lookup?, h.index_eq] at hid
      exact h.push (Or.inl rfl) rfl hid rfl

theorem grows_ensureNode (h : a.Linked) (name : String) : a.Grows (a.ensureNode name).1 := by
  cases hid : a.lookup? name with
  | some id =>
      rw [ensureNode_of_some hid]
      exact .refl a
  | none =>
      have hgrows := grows_push h.root_known (keyOf name) name
      rw [ensureNode_of_none hid]
      exact ⟨hgrows.parent?_eq, hgrows.nameOf_eq⟩

/-- The node of a name is found under its key. -/
theorem node_ensureNode (h : a.Linked) (name : String) :
    (a.ensureNode name).1.parent? (a.ensureNode name).2 = some root ∧
      (a.ensureNode name).1.keyAt (a.ensureNode name).2 = keyOf name := by
  cases hid : a.lookup? name with
  | some id =>
      rw [ensureNode_of_some hid]
      exact h.lookup?_eq_some_iff.mp hid
  | none =>
      rw [ensureNode_of_none hid]
      refine ⟨(parent?_push a _ name h.root_known _).trans (if_pos rfl), ?_⟩
      exact congrArg keyOf (nameOf_push_length a (keyOf name) name h.root_known)

variable (h : a.Linked) (hparent : a.parent? parent = some root)

include h hparent

theorem ensureField (name : String) : (a.ensureField parent name).1.Linked := by
  cases hid : a.child? parent name with
  | some id =>
      rw [ensureField_of_some hid]
      exact h
  | none =>
      have hne : parent ≠ root := h.ne_root hparent
      have hindex : a.index = if parent = root then put a.index name a.cells.length else a.index :=
        (if_neg hne).symm
      rw [ensureField_of_none hid]
      exact h.push (Or.inr hparent) (if_neg hne).symm hid hindex

theorem field_ensureField (name : String) :
    (a.ensureField parent name).1.parent? (a.ensureField parent name).2 = some parent ∧
      (a.ensureField parent name).1.nameOf (a.ensureField parent name).2 = name := by
  have hne : parent ≠ root := h.ne_root hparent
  cases hid : a.child? parent name with
  | some id =>
      rw [ensureField_of_some hid]
      obtain ⟨hid', hname⟩ := h.child?_eq_some_iff.mp hid
      rw [entryKey, if_neg hne] at hname
      exact ⟨hid', hname⟩
  | none =>
      have hlt := lt_length_of_parent? hparent
      rw [ensureField_of_none hid]
      exact ⟨(parent?_push a name name hlt _).trans (if_pos rfl), nameOf_push_length a name name hlt⟩

end Linked

end AnnotatedValues.Arena
