import AnnotatedValues.Proofs.Decimal.Digits
import AnnotatedValues.Proofs.Graph.WellFormed
import AnnotatedValues.Proofs.Text.Lines
import AnnotatedValues.Table.Build

/-!
# The paths of rows

The path of a row is that of its parameter with names of fields behind points and
elements in brackets.  If names of fields hold neither, a path can be taken apart
in one way only, and no two rows of a parameter have the same.
-/

namespace AnnotatedValues.Table

open Fallible Text

/-! ## Parts of a path -/

/-- What the name of a field ends at in a path. -/
def isBreak (c : Char) : Bool := c == '.' || c == '['

/-- A name that is a single part of a path. -/
def IsPart (name : String) : Prop := ∀ c ∈ name.toList, isBreak c = false

/-- The path `p` leads to a field of the struct at `path`. -/
def Inside (path p : String) : Prop := ∃ rest, p.toList = path.toList ++ '.' :: rest

/-- The path `p` leads to a field of the struct at `path`, or of one in brackets behind it. -/
def Under (path p : String) : Prop :=
  ∃ c rest, isBreak c = true ∧ p.toList = path.toList ++ c :: rest

variable {path p : String}

theorem Inside.under (h : Inside path p) : Under path p := by
  obtain ⟨rest, hp⟩ := h
  exact ⟨'.', rest, rfl, hp⟩

theorem Under.ne (h : Under path p) : p ≠ path := by
  rintro rfl
  obtain ⟨c, rest, -, hp⟩ := h
  simp at hp

/-- The path with an element in brackets. -/
def bracketed (path : String) (element : List Char) : String :=
  path ++ "[" ++ String.ofList element ++ "]"

theorem toList_bracketed (path : String) (element : List Char) :
    (bracketed path element).toList = path.toList ++ '[' :: (element ++ [']']) := by
  simp [bracketed]

theorem Inside.under_of_bracketed {element : List Char} (h : Inside (bracketed path element) p) :
    Under path p := by
  obtain ⟨rest, hp⟩ := h
  refine ⟨'[', element ++ ']' :: '.' :: rest, rfl, ?_⟩
  rw [hp, toList_bracketed]
  simp

/-- What is inside two elements in brackets is inside one. -/
theorem eq_of_inside_bracketed {element other : List Char} (helement : ']' ∉ element)
    (hother : ']' ∉ other) (h : Inside (bracketed path element) p)
    (h' : Inside (bracketed path other) p) : element = other := by
  obtain ⟨rest, hp⟩ := h
  obtain ⟨rest', hp'⟩ := h'
  rw [toList_bracketed] at hp hp'
  have hsame : element ++ ']' :: '.' :: rest = other ++ ']' :: '.' :: rest' := by
    have heq := hp.symm.trans hp'
    simpa using heq
  have hfree : ∀ cs : List Char, ']' ∉ cs → ∀ c ∈ cs, (c == ']') = false :=
    fun cs hcs c hc => beq_eq_false_iff_ne.mpr fun heq => hcs (heq ▸ hc)
  exact (append_inj_of_separator (p := (· == ']')) (hfree _ helement) (hfree _ hother)
    (by simp) (by simp) hsame).1

/-! ## Listings -/

/-- No path leads inside both listings. -/
def Apart (a b : Listing) : Prop := ∀ p, Inside a.path p → ¬ Inside b.path p

/-- A listing is at the path or in brackets behind it. -/
def IsAt (path : String) (l : Listing) : Prop :=
  l.path = path ∨ ∃ element, ']' ∉ element ∧ l.path = bracketed path element

theorem Inside.under_of_isAt {l : Listing} (hl : IsAt path l) (h : Inside l.path p) :
    Under path p := by
  rcases hl with hpath | ⟨element, -, hpath⟩
  · rw [hpath] at h
    exact h.under
  · rw [hpath] at h
    exact h.under_of_bracketed

theorem closing_not_mem_natText (n : Nat) : ']' ∉ Decimal.natText n := by
  intro h
  obtain ⟨digit, hdigit, heq⟩ := Decimal.exists_digit_of_mem_natText h
  have hdigits : ∀ d < 10, Decimal.digitChar d ≠ ']' := by decide
  exact hdigits digit hdigit heq.symm

theorem path_of_mem_itemListings {owner : String} {i : Nat} {items : List Document} {l : Listing}
    (h : l ∈ itemListings path owner i items) :
    ∃ j ≥ i, l.path = bracketed path (Decimal.natText j) := by
  induction items generalizing i with
  | nil => cases h
  | cons item items ih =>
      rcases List.mem_cons.mp h with rfl | hrest
      · exact ⟨i, Nat.le_refl i, rfl⟩
      · obtain ⟨j, hj, hpath⟩ := ih hrest
        exact ⟨j, Nat.le_of_succ_le hj, hpath⟩

theorem pairwise_itemListings (path owner : String) (i : Nat) (items : List Document) :
    (itemListings path owner i items).Pairwise Apart := by
  induction items generalizing i with
  | nil => exact .nil
  | cons item items ih =>
      refine List.pairwise_cons.mpr ⟨fun l hl p hfirst hlater => ?_, ih (i + 1)⟩
      obtain ⟨j, hj, hpath⟩ := path_of_mem_itemListings hl
      rw [hpath] at hlater
      have heq := Decimal.natText_injective (eq_of_inside_bracketed (closing_not_mem_natText i)
        (closing_not_mem_natText j) hfirst hlater)
      omega

/-- The listings below a member are at its path, and apart. -/
theorem listings_apart (type : Resolved) (path : String) (value? : Option Document) :
    (∀ l ∈ listings type path value?, IsAt path l) ∧ (listings type path value?).Pairwise Apart := by
  have hone : ∀ l : Listing, IsAt path l → (∀ l' ∈ [l], IsAt path l') ∧ [l].Pairwise Apart :=
    fun l hl => ⟨fun l' hl' => List.mem_singleton.mp hl' ▸ hl, List.pairwise_singleton _ _⟩
  have hnone : (∀ l' ∈ ([] : List Listing), IsAt path l') ∧ ([] : List Listing).Pairwise Apart :=
    ⟨by simp, .nil⟩
  unfold listings
  split
  · exact hone _ (Or.inl rfl)
  · split
    · unfold arrayListings
      split
      · refine ⟨fun l hl => ?_, pairwise_itemListings _ _ _ _⟩
        obtain ⟨j, -, hpath⟩ := path_of_mem_itemListings hl
        exact Or.inr ⟨_, closing_not_mem_natText j, hpath⟩
      · exact hone _ (Or.inr ⟨['i'], by decide, by simp [bracketed, String.append_assoc]⟩)
    · exact hnone
  · split
    · exact hone _ (Or.inr ⟨"name".toList, by decide, by simp [bracketed, String.append_assoc]⟩)
    · exact hnone
  · exact hnone

/-! ## Rows -/

/-- The paths of the rows of a member: its own, and then others under it. -/
structure MemberPaths (path : String) (rows : List Row) : Prop where
  own : ∃ row below, rows = row :: below ∧ row.path = path ∧
    ∀ other ∈ below, Under path other.path
  nodup : (rows.map (·.path)).Nodup

/-- The paths of the rows of a struct. -/
structure StructPaths (path : String) (rows : List Row) : Prop where
  inside : ∀ row ∈ rows, Inside path row.path
  nodup : (rows.map (·.path)).Nodup

/-- The path of a row is that of the member, or goes on with a break. -/
theorem MemberPaths.exists_rest {rows : List Row} (h : MemberPaths path rows) {row : Row}
    (hrow : row ∈ rows) :
    ∃ rest, (∀ c ∈ rest.head?, isBreak c = true) ∧ row.path.toList = path.toList ++ rest := by
  obtain ⟨own, below, rfl, hown, hbelow⟩ := h.own
  rcases List.mem_cons.mp hrow with rfl | hmem
  · exact ⟨[], by simp, by rw [hown, List.append_nil]⟩
  · obtain ⟨c, rest, hc, hpath⟩ := hbelow row hmem
    exact ⟨c :: rest, fun d hd => Option.some.inj hd ▸ hc, hpath⟩

variable {r : Resolver}

theorem memberPaths_memberRows {structRows : Listing → Except Unresolved (List Row)}
    (hstruct : ∀ {l rows}, structRows l = .ok rows → StructPaths l.path rows) {slot : Slot}
    {value? : Option Document} {rows : List Row}
    (h : memberRows r structRows path slot value? = .ok rows) : MemberPaths path rows := by
  obtain ⟨type, -, h⟩ := bind_eq_ok_iff.mp h
  obtain ⟨below, hbelow, h⟩ := bind_eq_ok_iff.mp h
  rw [pure_eq_ok_iff] at h
  subst h
  obtain ⟨hat, hapart⟩ := listings_apart type path (value?.filter fun value => !value.isNull)
  have hunder : ∀ row ∈ below.flatten, Under path row.path := by
    intro row hrow
    obtain ⟨rows, hrows, hrow⟩ := List.mem_flatten.mp hrow
    obtain ⟨l, hl, hresult⟩ := exists_mem_of_mapM hbelow hrows
    exact ((hstruct hresult).inside row hrow).under_of_isAt (hat l hl)
  refine ⟨⟨_, _, rfl, rfl, hunder⟩, ?_⟩
  rw [List.map_cons, List.nodup_cons]
  constructor
  · intro hmem
    obtain ⟨row, hrow, hpath⟩ := List.mem_map.mp hmem
    exact (hunder row hrow).ne hpath
  · exact nodup_flatten_of_mapM (·.path) hbelow hapart (fun hrows => (hstruct hrows).nodup)
      fun hab ha hb row hrow row' hrow' heq =>
        hab _ ((hstruct ha).inside row hrow) (heq ▸ (hstruct hb).inside row' hrow')

/-- No two fields of a node have one name. -/
theorem pairwise_name_fieldsOf {g : TypeGraph} (hg : g.WellFormed) (key : String) :
    (g.fieldsOf key).Pairwise fun a b => a.name ≠ b.name := by
  have howned : ((g.fields.filter fun f => f.owner == key).map fun f => (f.owner, f.name)).Nodup :=
    hg.fields_nodup.sublist (List.filter_sublist.map _)
  have hnames : (g.fields.filter fun f => f.owner == key).Pairwise fun a b => a.name ≠ b.name := by
    rw [List.nodup_iff_pairwise_ne, List.pairwise_map] at howned
    refine howned.imp_of_mem fun ha hb hne heq => hne (Prod.ext ?_ heq)
    exact (beq_iff_eq.mp (List.mem_filter.mp ha).2).trans
      (beq_iff_eq.mp (List.mem_filter.mp hb).2).symm
  exact (List.mergeSort_perm _ _).symm.pairwise hnames fun h => Ne.symm h

/-- The names of fields are parts of paths. -/
def PlainFields (g : TypeGraph) : Prop := ∀ f ∈ g.fields, IsPart f.name

/-- The path of a field of the struct at a path. -/
theorem toList_fieldPath (path name : String) :
    (path ++ "." ++ name).toList = path.toList ++ '.' :: name.toList := by
  simp

theorem structPaths_structRows (hg : r.graph.WellFormed) (hplain : PlainFields r.graph) {fuel : Nat}
    {path : List String} {l : Listing} {rows : List Row}
    (h : structRows r fuel path l = .ok rows) : StructPaths l.path rows := by
  induction fuel generalizing path l rows with
  | zero =>
      cases h
      exact ⟨by simp, List.nodup_nil⟩
  | succ fuel ih =>
      rw [structRows] at h
      split at h
      · cases h
        exact ⟨by simp, List.nodup_nil⟩
      · obtain ⟨rowLists, hlists, h⟩ := bind_eq_ok_iff.mp h
        rw [pure_eq_ok_iff] at h
        subst h
        have hfield : ∀ {f : Field} {rows : List Row},
            memberRows r (structRows r fuel (l.owner :: path)) (l.path ++ "." ++ f.name)
              (.field l.owner f.name) (l.value?.bind fun value => value.get? f.name) = .ok rows →
            MemberPaths (l.path ++ "." ++ f.name) rows :=
          fun h => memberPaths_memberRows (fun hrows => ih hrows) h
        have hnames : (r.graph.fieldsOf l.owner).Pairwise fun a b =>
            IsPart a.name ∧ IsPart b.name ∧ a.name ≠ b.name := by
          refine (pairwise_name_fieldsOf hg l.owner).imp_of_mem fun ha hb hne => ?_
          exact ⟨hplain _ (TypeGraph.mem_fieldsOf.mp ha).1,
            hplain _ (TypeGraph.mem_fieldsOf.mp hb).1, hne⟩
        constructor
        · intro row hrow
          obtain ⟨rows, hrows, hrow⟩ := List.mem_flatten.mp hrow
          obtain ⟨f, -, hresult⟩ := exists_mem_of_mapM hlists hrows
          obtain ⟨rest, -, hpath⟩ := (hfield hresult).exists_rest hrow
          refine ⟨f.name.toList ++ rest, ?_⟩
          rw [hpath, toList_fieldPath, List.append_assoc]
          rfl
        · refine nodup_flatten_of_mapM (·.path) hlists hnames (fun hrows => (hfield hrows).nodup) ?_
          rintro a b as bs ⟨ha, hb, hne⟩ has hbs row hrow row' hrow' heq
          obtain ⟨rest, hrest, hpath⟩ := (hfield has).exists_rest hrow
          obtain ⟨rest', hrest', hpath'⟩ := (hfield hbs).exists_rest hrow'
          rw [heq, hpath', toList_fieldPath, toList_fieldPath, List.append_assoc, List.append_assoc,
            List.append_cancel_left_eq, List.cons_append, List.cons_append, List.cons.injEq] at hpath
          refine hne (String.toList_inj.mp ?_)
          exact (append_inj_of_separator hb ha hrest' hrest hpath.2).1.symm

/-- The rows of a parameter are its own and others under it. -/
theorem memberPaths_paramRows (hg : r.graph.WellFormed) (hplain : PlainFields r.graph)
    {values : Document} {name key : String} (hkey : r.graph.param? name = some key)
    {rows : List Row} (h : paramRows r values name = .ok rows) : MemberPaths name rows := by
  rw [paramRows, hkey] at h
  exact memberPaths_memberRows (fun hrows => structPaths_structRows hg hplain hrows) h

end AnnotatedValues.Table
