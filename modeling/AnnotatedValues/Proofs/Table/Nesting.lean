import AnnotatedValues.Proofs.Nesting
import AnnotatedValues.Proofs.Table.Build

/-!
# Tables from a shared stack

The rows of a section can be computed with one stack of the structs that are
being listed.  With a level of nesting for each node and one more the computation
ends, and every member has the rows that it has inside the structs on the stack.
-/

namespace AnnotatedValues.Table

variable (r : Resolver)

/-! ## Rows with a stack -/

/-- The rows of a member, given those of the structs listed below it. -/
def guardedMember (listed : Listing → Guarded (List Row)) (path : String) (slot : Slot)
    (value? : Option Document) : Guarded (List Row) := do
  let member := (r.graph.member? slot).getD .blank
  let type ← .lift (r.resolveSlot slot)
  let value? := value?.filter fun value => !value.isNull
  let below ← (listings type path value?).mapM listed
  return ⟨path, member.comment, typeText type, valueText type value? member.annotated?⟩ ::
    below.flatten

/-- The rows of the fields of a struct, which is on the stack while they are computed. -/
def guardedListing : (levels : Nat) → Listing → Guarded (List Row)
  | 0, _ => .tooDeep
  | levels + 1, listing => .expanding listing.owner [] do
    let rows ← (r.graph.fieldsOf listing.owner).mapM fun f =>
      guardedMember r (guardedListing levels) (listing.path ++ "." ++ f.name)
        (.field listing.owner f.name) (listing.value?.bind fun value => value.get? f.name)
    return rows.flatten

def guardedRows (levels : Nat) (path : String) (slot : Slot) (value? : Option Document) :
    Guarded (List Row) :=
  guardedMember r (guardedListing r levels) path slot value?

/-- The rows of a parameter, by its name. -/
def guardedParam (levels : Nat) (values : Document) (name : String) : Guarded (List Row) :=
  match r.graph.param? name with
  | some key => guardedRows r levels name (.node key) (values.get? name)
  | none => return []

/-- The table of a section, with one stack for all of its parameters. -/
def guardedSection (levels : Nat) (values : Document) (s : Annotation.Section) :
    Guarded Table := do
  let rows ← s.params.mapM (guardedParam r levels values)
  return ⟨s.title, rows.flatten⟩

/-! ## The rows inside the structs on the stack -/

theorem owner_of_mem_arrayListings {path owner : String} {value? : Option Document}
    {listing : Listing} (h : listing ∈ arrayListings path owner value?) :
    listing.owner = owner := by
  have hitems : ∀ (items : List Document) (i : Nat),
      listing ∈ itemListings path owner i items → listing.owner = owner := by
    intro items
    induction items with
    | nil =>
        intro i hmem
        cases hmem
    | cons item items ih =>
        intro i hmem
        rcases List.mem_cons.mp hmem with rfl | hrest
        · rfl
        · exact ih (i + 1) hrest
  unfold arrayListings at h
  split at h
  · exact hitems _ 0 h
  · rw [List.mem_singleton.mp h]

/-- The structs listed below a member are the one inside its type. -/
theorem owner_of_mem_listings {type : Resolved} {path : String} {value? : Option Document}
    {listing : Listing} (h : listing ∈ listings type path value?) :
    ∃ ref, type.innermost? = some ref ∧ listing.owner = ref.key := by
  rw [← Resolved.innermost?_stripPointer]
  unfold listings at h
  split at h
  · rename_i ref hstruct
    rw [hstruct, List.mem_singleton.mp h]
    exact ⟨ref, rfl, rfl⟩
  · rename_i elem harray
    split at h
    · rename_i ref hstruct
      have helem := Resolved.innermost?_of_struct?_stripPointer hstruct
      rw [harray]
      exact ⟨ref, helem, owner_of_mem_arrayListings h⟩
    · cases h
  · rename_i elem hmap
    split at h
    · rename_i ref hstruct
      have helem := Resolved.innermost?_of_struct?_stripPointer hstruct
      rw [hmap, List.mem_singleton.mp h]
      exact ⟨ref, helem, rfl⟩
    · cases h
  · cases h

variable {r} {stack : List String}

theorem follows_guardedMember {listed : Listing → Guarded (List Row)}
    {listed' : Listing → Except Unresolved (List Row)} (path : String) {slot : Slot}
    (value? : Option Document)
    (h : ∀ t ref listing, r.resolveSlot slot = .ok t → t.innermost? = some ref →
      listing.owner = ref.key → Follows stack (listed listing) (listed' listing)) :
    Follows stack (guardedMember r listed path slot value?)
      (memberRows r listed' path slot value?) := by
  refine (Follows.lift stack (r.resolveSlot slot)).bind fun t ht => ?_
  refine Follows.bind (.mapM fun listing hlisting => ?_) fun below _ => .pure stack _
  obtain ⟨ref, href, howner⟩ := owner_of_mem_listings hlisting
  exact h t ref listing ht href howner

/-- Structs of the graph are listed while there is room. -/
theorem follows_guardedListing (hg : r.graph.WellFormed) {levels : Nat}
    (hroom : r.Room levels stack) {listing : Listing}
    (howner : listing.owner ∈ r.graph.nodes.map Prod.fst) :
    Follows stack (guardedListing r levels listing)
      (structRows r (r.graph.nodes.length + 1 - stack.length) stack listing) := by
  induction levels generalizing stack listing with
  | zero => exact hroom.not_zero.elim
  | succ levels ih =>
      rw [hroom.budget_eq, guardedListing, structRows]
      refine .expanding fun hfresh => ?_
      have hbelow := hroom.push howner hfresh
      refine Follows.bind (.mapM fun f _ => ?_) fun rows _ => .pure _ _
      refine follows_guardedMember _ _ fun t ref inner ht href hinner => ?_
      rw [← Resolver.Room.budget_push r listing.owner stack]
      exact ih hbelow (hinner ▸ Resolver.mem_keys_of_innermost? hg ht href)

/-- Every member has the rows that it has inside the structs on the stack. -/
theorem follows_guardedRows (hg : r.graph.WellFormed) {levels : Nat} (hroom : r.Room levels stack)
    (path : String) (slot : Slot) (value? : Option Document) :
    Follows stack (guardedRows r levels path slot value?)
      (memberRows r (structRows r (r.graph.nodes.length + 1 - stack.length) stack) path slot
        value?) :=
  follows_guardedMember path value? fun _ _ _ ht href howner =>
    follows_guardedListing hg hroom (howner ▸ Resolver.mem_keys_of_innermost? hg ht href)

theorem follows_guardedParam (hg : r.graph.WellFormed) {levels : Nat}
    (h : r.graph.nodes.length < levels) (values : Document) (name : String) :
    Follows [] (guardedParam r levels values name) (paramRows r values name) := by
  unfold guardedParam paramRows
  cases r.graph.param? name with
  | some key => exact follows_guardedRows hg (.empty h) _ _ _
  | none => exact .pure [] []

theorem follows_guardedSection (hg : r.graph.WellFormed) {levels : Nat}
    (h : r.graph.nodes.length < levels) (values : Document) (s : Annotation.Section) :
    Follows [] (guardedSection r levels values s) (ofSection r values s) :=
  Follows.bind (.mapM fun name _ => follows_guardedParam hg h values name) fun _ _ => .pure _ _

end AnnotatedValues.Table
