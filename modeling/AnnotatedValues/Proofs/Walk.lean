import AnnotatedValues.Proofs.Document.Order
import AnnotatedValues.Proofs.Validation

/-!
# The walk of the validator

The validator goes through a values document in the order of its keys and, in
values of structs, from each entry to the slot of its key.  For any property of
slots, the issues of the entries whose slots have it are listed by their
positions, from the first to the last.  The walk goes through the sorted
document, and a position is one in the document itself, so that the order of
entries is not seen in it.
-/

namespace AnnotatedValues

/-! ## Positions -/

/-- A step from a value into a part of it. -/
inductive Step where
  | key (name : String)
  | index (i : Nat)
  deriving DecidableEq, Repr

namespace Step

/-- The order of the parts of one value. -/
inductive Before : Step → Step → Prop where
  | key {name other : String} (h : name < other) : Before (.key name) (.key other)
  | index {i j : Nat} (h : i < j) : Before (.index i) (.index j)

theorem Before.irrefl (s : Step) : ¬ s.Before s := by
  intro h
  cases h with
  | key h => exact String.lt_irrefl _ h
  | index h => exact Nat.lt_irrefl _ h

theorem Before.asymm {s t : Step} (h : s.Before t) : ¬ t.Before s := by
  intro h'
  cases h with
  | key h =>
      cases h' with
      | key h' => exact String.lt_asymm h h'
  | index h =>
      cases h' with
      | index h' => exact Nat.lt_asymm h h'

end Step

/-- The steps from a document to a part of it. -/
abbrev Position := List Step

namespace Position

/-- The order in which a walk through a document comes to its parts, if it takes the entries of
each object in the order of their keys. -/
abbrev Earlier (p q : Position) : Prop := List.Lex Step.Before p q

theorem Earlier.ne {p q : Position} (h : Earlier p q) : p ≠ q := by
  rintro rfl
  exact List.lex_irrefl Step.Before.irrefl p h

theorem Earlier.asymm {p q : Position} (h : Earlier p q) : ¬ Earlier q p :=
  List.lex_asymm Step.Before.asymm h

/-- The path of a position behind a path. -/
def textFrom (path : String) : Position → String
  | [] => path
  | .key name :: p => textFrom (Resolver.keyedPath path name) p
  | .index i :: p => textFrom (Resolver.indexedPath path i) p

end Position

/-! ## Issues by position -/

open Position

/-- The issues are those of the positions that have a property, one for each, in the order of the
positions. -/
def Lists (issueOf : Position → Issue) (p : Position → Prop) (issues : List Issue) : Prop :=
  ∃ positions : List Position, positions.Pairwise Earlier ∧
    (∀ position, position ∈ positions ↔ p position) ∧ issues = positions.map issueOf

namespace Lists

variable {issueOf issueOf' : Position → Issue} {p q : Position → Prop} {issues : List Issue}

theorem nil (h : ∀ position, ¬ p position) : Lists issueOf p [] :=
  ⟨[], .nil, fun position => iff_of_false List.not_mem_nil (h position), rfl⟩

theorem here (h : ∀ position, p position ↔ position = []) : Lists issueOf p [issueOf []] :=
  ⟨[[]], List.pairwise_singleton _ _, fun position => List.mem_singleton.trans (h position).symm, rfl⟩

theorem congr (h : Lists issueOf p issues) (hiff : ∀ position, p position ↔ q position)
    (hissue : ∀ position, p position → issueOf position = issueOf' position) :
    Lists issueOf' q issues := by
  obtain ⟨positions, hpairwise, hmem, rfl⟩ := h
  exact ⟨positions, hpairwise, fun position => (hmem position).trans (hiff position),
    List.map_congr_left fun position hposition => hissue position ((hmem position).mp hposition)⟩

/-- The issues of parts that are reached by later and later steps are listed one part after the
other. -/
theorem flatMap {α : Type} (issueOf : Position → Issue) (step : α → Step) (f : α → List Issue)
    (of : α → Position → Prop) {parts : List α}
    (hsteps : parts.Pairwise fun a b => (step a).Before (step b))
    (hparts : ∀ a ∈ parts, Lists (fun position => issueOf (step a :: position)) (of a) (f a)) :
    Lists issueOf (fun position => ∃ a ∈ parts, ∃ rest, position = step a :: rest ∧ of a rest)
      (parts.flatMap f) := by
  induction parts with
  | nil => exact nil fun _ ⟨_, h, _⟩ => absurd h List.not_mem_nil
  | cons a parts ih =>
      rw [List.forall_mem_cons] at hparts
      obtain ⟨hfirst, hlater⟩ := List.pairwise_cons.mp hsteps
      obtain ⟨positions, hpairwise, hmem, hissues⟩ := hparts.1
      obtain ⟨others, hothers, hmem', hissues'⟩ := ih hlater hparts.2
      refine ⟨positions.map (step a :: ·) ++ others, ?_, fun position => ?_, ?_⟩
      · refine List.pairwise_append.mpr
          ⟨List.pairwise_map.mpr (hpairwise.imp fun h => .cons h), hothers, ?_⟩
        intro position hposition other hother
        obtain ⟨rest, -, rfl⟩ := List.mem_map.mp hposition
        obtain ⟨b, hb, rest', rfl, -⟩ := (hmem' other).mp hother
        exact .rel (hfirst b hb)
      · simp only [List.mem_append, hmem', List.mem_map, List.exists_mem_cons_iff]
        refine or_congr_left ⟨?_, ?_⟩
        · rintro ⟨rest, hrest, rfl⟩
          exact ⟨rest, rfl, (hmem rest).mp hrest⟩
        · rintro ⟨rest, rfl, hrest⟩
          exact ⟨rest, (hmem rest).mpr hrest, rfl⟩
      · rw [List.flatMap_cons, hissues, hissues', List.map_append, List.map_map]
        rfl

/-- The issues of the values of an object, in the order of its keys. -/
theorem entries (issueOf : Position → Issue) (f : String × Document → List Issue)
    (of : String × Document → Position → Prop) {entries : List (String × Document)}
    (hkeys : (entries.map Prod.fst).Nodup)
    (hentries : ∀ entry ∈ entries,
      Lists (fun position => issueOf (.key entry.1 :: position)) (of entry)
        (f (entry.1, entry.2.sorted))) :
    Lists issueOf
      (fun position => ∃ entry ∈ entries, ∃ rest, position = .key entry.1 :: rest ∧ of entry rest)
      ((Document.sortEntries (entries.map fun e => (e.1, e.2.sorted))).flatMap f) := by
  have hsorted : Document.sortEntries (entries.map fun e => (e.1, e.2.sorted)) =
      (Document.sortEntries entries).map fun e => (e.1, e.2.sorted) :=
    (List.map_mergeSort (f := fun e : String × Document => (e.1, e.2.sorted))
      fun _ _ _ _ => rfl).symm
  rw [hsorted, List.flatMap_map]
  have hlists := flatMap issueOf (fun entry : String × Document => .key entry.1)
    (fun entry => f (entry.1, entry.2.sorted)) of
    ((Document.pairwise_sortEntries hkeys).imp fun h => .key h)
    (fun entry hentry => hentries entry (Keyed.mem_sortEntries.mp hentry))
  exact hlists.congr (fun position => by simp only [Keyed.mem_sortEntries]) fun _ _ => rfl

end Lists

namespace Resolver

variable {r : Resolver}

/-! ## The walk of the validator -/

theorem pairwise_snd_zipIdx {α : Type} (as : List α) (i : Nat) :
    (as.zipIdx i).Pairwise fun a b => a.2 < b.2 := by
  rw [← List.pairwise_map (f := Prod.snd) (R := (· < ·)), List.zipIdx_map_snd]
  exact List.pairwise_lt_range'

theorem checkItems_eq (type : Resolved) (path : String) (i : Nat) (items : List Document) :
    r.checkItems type path i items =
      (items.zipIdx i).flatMap fun item => r.check type (indexedPath path item.2) item.1 := by
  induction items generalizing i with
  | nil => rw [checkItems]; rfl
  | cons item items ih => rw [checkItems, ih, List.zipIdx_cons, List.flatMap_cons]

theorem checkElements_eq (type : Resolved) (path : String) (entries : List (String × Document)) :
    r.checkElements type path entries =
      entries.flatMap fun entry => r.check type (keyedPath path entry.1) entry.2 := by
  induction entries with
  | nil => rw [checkElements]; rfl
  | cons entry entries ih => rw [checkElements, ih, List.flatMap_cons]

theorem checkFields_eq (owner path : String) (entries : List (String × Document)) :
    r.checkFields owner path entries = entries.flatMap fun entry =>
      r.checkAt (.undeclaredField (keyedPath path entry.1)) (keyedPath path entry.1)
        (r.graph.slotOf? (some owner) entry.1) entry.2 := by
  induction entries with
  | nil => rw [checkFields]; rfl
  | cons entry entries ih => rw [checkFields_cons, ih, List.flatMap_cons]

/-- The issue of an entry itself, apart from those of its value. -/
def ownIssue? (r : Resolver) (missing : Issue) (path : String) : Option Slot → Option Issue
  | none => some missing
  | some slot =>
    match r.resolveSlot slot with
    | .ok _ => none
    | .error ⟨name⟩ => some (.noSchema name path)

section

variable {sought : Option Slot → Prop} {keeps : Issue → Bool} {issueAt : String → Issue}

/-- A position inside a value of a type to which the validator comes for an entry of a struct whose
slot is sought. -/
inductive FoundIn (r : Resolver) (sought : Option Slot → Prop) :
    Resolved → Document → Position → Prop where
  | here {type : Resolved} {ref : StructRef} {entries : List (String × Document)} {key : String}
      {value : Document} (htype : type.pointee = .struct ref) (hentry : (key, value) ∈ entries)
      (h : sought (r.graph.slotOf? (some ref.key) key)) :
      FoundIn r sought type (.object entries) [.key key]
  | field {type fieldType : Resolved} {ref : StructRef} {entries : List (String × Document)}
      {key : String} {value : Document} {slot : Slot} {p : Position}
      (htype : type.pointee = .struct ref) (hentry : (key, value) ∈ entries)
      (hslot : r.graph.slotOf? (some ref.key) key = some slot)
      (hfield : r.resolveSlot slot = .ok fieldType) (h : FoundIn r sought fieldType value p) :
      FoundIn r sought type (.object entries) (.key key :: p)
  | element {type elem : Resolved} {entries : List (String × Document)} {key : String}
      {value : Document} {p : Position} (htype : type.pointee = .map elem)
      (hentry : (key, value) ∈ entries) (h : FoundIn r sought elem value p) :
      FoundIn r sought type (.object entries) (.key key :: p)
  | item {type elem : Resolved} {items : List Document} {i : Nat} {item : Document} {p : Position}
      (htype : type.pointee = .array elem) (hitem : items[i]? = some item)
      (h : FoundIn r sought elem item p) : FoundIn r sought type (.array items) (.index i :: p)

/-- The position of an entry itself whose slot is sought, or one inside its value. -/
inductive FoundAt (r : Resolver) (sought : Option Slot → Prop) (slot? : Option Slot)
    (value : Document) : Position → Prop where
  | here (h : sought slot?) : FoundAt r sought slot? value []
  | inside {slot : Slot} {type : Resolved} {p : Position} (hslot : slot? = some slot)
      (htype : r.resolveSlot slot = .ok type) (h : r.FoundIn sought type value p) :
      FoundAt r sought slot? value p

/-- A position in a values document to which the validator comes for an entry whose slot is
sought. -/
def Found (r : Resolver) (sought : Option Slot → Prop) (values : Document) (p : Position) : Prop :=
  ∃ entry ∈ values.entries, ∃ rest, p = .key entry.1 :: rest ∧
    r.FoundAt sought (r.graph.slotOf? none entry.1) entry.2 rest

theorem FoundIn.ne_nil {type : Resolved} {d : Document} {p : Position}
    (h : r.FoundIn sought type d p) : p ≠ [] := by
  cases h with
  | here => exact List.cons_ne_nil _ _
  | field => exact List.cons_ne_nil _ _
  | element => exact List.cons_ne_nil _ _
  | item => exact List.cons_ne_nil _ _

/-- What is found inside an array is found inside its items, -/
theorem foundIn_array_iff {type elem : Resolved} {items : List Document} {p : Position}
    (htype : type.pointee = .array elem) :
    r.FoundIn sought type (.array items) p ↔ ∃ item ∈ items.zipIdx, ∃ rest,
      p = .index item.2 :: rest ∧ r.FoundIn sought elem item.1 rest := by
  constructor
  · intro h
    cases h with
    | item htype' hitem h =>
        cases htype.symm.trans htype'
        exact ⟨(_, _), List.mem_zipIdx_iff_getElem?.mpr hitem, _, rfl, h⟩
  · rintro ⟨item, hitem, rest, rfl, h⟩
    exact .item htype (List.mem_zipIdx_iff_getElem?.mp hitem) h

/-- what is found inside a map, inside its elements, -/
theorem foundIn_map_iff {type elem : Resolved} {entries : List (String × Document)} {p : Position}
    (htype : type.pointee = .map elem) :
    r.FoundIn sought type (.object entries) p ↔ ∃ entry ∈ entries, ∃ rest,
      p = .key entry.1 :: rest ∧ r.FoundIn sought elem entry.2 rest := by
  constructor
  · intro h
    cases h with
    | here htype' => cases htype.symm.trans htype'
    | field htype' => cases htype.symm.trans htype'
    | element htype' hentry h =>
        cases htype.symm.trans htype'
        exact ⟨_, hentry, _, rfl, h⟩
  · rintro ⟨entry, hentry, rest, rfl, h⟩
    exact .element htype hentry h

/-- and what is found inside a struct, at its fields. -/
theorem foundIn_struct_iff {type : Resolved} {ref : StructRef}
    {entries : List (String × Document)} {p : Position} (htype : type.pointee = .struct ref) :
    r.FoundIn sought type (.object entries) p ↔ ∃ entry ∈ entries, ∃ rest,
      p = .key entry.1 :: rest ∧
        r.FoundAt sought (r.graph.slotOf? (some ref.key) entry.1) entry.2 rest := by
  constructor
  · intro h
    cases h with
    | here htype' hentry h =>
        cases htype.symm.trans htype'
        exact ⟨_, hentry, _, rfl, .here h⟩
    | field htype' hentry hslot hfield h =>
        cases htype.symm.trans htype'
        exact ⟨_, hentry, _, rfl, .inside hslot hfield h⟩
    | element htype' => cases htype.symm.trans htype'
  · rintro ⟨entry, hentry, rest, rfl, h⟩
    cases h with
    | here h => exact .here htype hentry h
    | inside hslot hfield h => exact .field htype hentry hslot hfield h

theorem lists_own {issueOf : Position → Issue} {own : Issue} {found : Position → Prop} {here : Prop}
    (hown : ∀ issue, (some own).filter keeps = some issue ↔ here ∧ issue = issueOf [])
    (hfound : ∀ p, found p ↔ p = [] ∧ here) : Lists issueOf found ([own].filter keeps) := by
  cases hkeeps : keeps own with
  | true =>
      rw [Option.filter_some, if_pos hkeeps] at hown
      obtain ⟨hhere, rfl⟩ := (hown own).mp rfl
      rw [List.filter_singleton, hkeeps]
      exact .here fun p => (hfound p).trans (and_iff_left hhere)
  | false =>
      rw [Option.filter_some, hkeeps] at hown
      rw [List.filter_singleton, hkeeps]
      refine .nil fun p h => ?_
      cases (hown _).mpr ⟨((hfound p).mp h).2, rfl⟩

/-- If the kept issue of an entry itself tells whether its slot is sought, the kept issues of the
entry list the positions at which one is found. -/
theorem lists_checkAt {issueOf : Position → Issue} {missing : Issue} {path : String}
    {slot? : Option Slot} {value : Document}
    (hown : ∀ issue, (r.ownIssue? missing path slot?).filter keeps = some issue ↔
      sought slot? ∧ issue = issueOf [])
    (hissue : ∀ p ≠ [], issueOf p = issueAt (textFrom path p))
    (hvalue : ∀ type, Lists (fun p => issueAt (textFrom path p)) (r.FoundIn sought type value)
      ((r.check type path value.sorted).filter keeps)) :
    Lists issueOf (r.FoundAt sought slot? value)
      ((r.checkAt missing path slot? value.sorted).filter keeps) := by
  unfold checkAt
  unfold ownIssue? at hown
  cases slot? with
  | none =>
      refine lists_own hown fun p => ⟨fun h => ?_, fun ⟨hp, h⟩ => hp ▸ .here h⟩
      cases h with
      | here h => exact ⟨rfl, h⟩
      | inside hslot => cases hslot
  | some slot =>
      dsimp only at hown ⊢
      cases hslot : r.resolveSlot slot with
      | ok type =>
          rw [hslot] at hown
          refine (hvalue type).congr (fun p => ⟨.inside rfl hslot, fun h => ?_⟩) fun p h =>
            (hissue p h.ne_nil).symm
          cases h with
          | here h => cases (hown _).mpr ⟨h, rfl⟩
          | inside hslot' htype h =>
              cases hslot'
              cases hslot.symm.trans htype
              exact h
      | error e =>
          rw [hslot] at hown
          refine lists_own hown fun p => ⟨fun h => ?_, fun ⟨hp, h⟩ => hp ▸ .here h⟩
          cases h with
          | here h => exact ⟨rfl, h⟩
          | inside hslot' htype =>
              cases hslot'
              cases hslot.symm.trans htype

/-- The kept issues of a value, of whatever type and at whatever path, list the positions inside. -/
def ListsInside (r : Resolver) (sought : Option Slot → Prop) (keeps : Issue → Bool)
    (issueAt : String → Issue) (d : Document) : Prop :=
  ∀ (type : Resolved) (path : String),
    Lists (fun p => issueAt (textFrom path p)) (r.FoundIn sought type d)
      ((r.check type path d.sorted).filter keeps)

theorem listsInside_array {items : List Document}
    (h : ∀ item ∈ items, r.ListsInside sought keeps issueAt item) :
    r.ListsInside sought keeps issueAt (.array items) := by
  intro type path
  rw [Document.sorted_array, check]
  split
  · rename_i elem htype
    rw [checkItems_eq, List.zipIdx_map, List.flatMap_map, List.filter_flatMap]
    have hlists := Lists.flatMap (fun p => issueAt (textFrom path p))
      (fun item => .index item.2)
      (fun item => (r.check elem (indexedPath path item.2) item.1.sorted).filter keeps)
      (fun item => r.FoundIn sought elem item.1)
      ((pairwise_snd_zipIdx items 0).imp fun h => .index h)
      (fun item hitem => h item.1 (List.mem_of_getElem? (List.mem_zipIdx_iff_getElem?.mp hitem))
        elem _)
    exact hlists.congr (fun p => (foundIn_array_iff htype).symm) fun _ _ => rfl
  · rename_i hother
    refine .nil fun p h => ?_
    cases h with
    | item htype => exact hother _ htype

theorem listsInside_object
    (hown : ∀ path slot? issue,
      (r.ownIssue? (.undeclaredField path) path slot?).filter keeps = some issue ↔
        sought slot? ∧ issue = issueAt path)
    {entries : List (String × Document)} (hkeys : (entries.map Prod.fst).Nodup)
    (h : ∀ entry ∈ entries, r.ListsInside sought keeps issueAt entry.2) :
    r.ListsInside sought keeps issueAt (.object entries) := by
  intro type path
  rw [Document.sorted_object, check]
  split
  · -- a map
    rename_i elem htype
    rw [checkElements_eq, List.filter_flatMap]
    have hlists := Lists.entries (fun p => issueAt (textFrom path p))
      (fun entry => (r.check elem (keyedPath path entry.1) entry.2).filter keeps)
      (fun entry => r.FoundIn sought elem entry.2) hkeys
      (fun entry hentry => h entry hentry elem _)
    exact hlists.congr (fun p => (foundIn_map_iff htype).symm) fun _ _ => rfl
  · -- a struct
    rename_i ref htype
    rw [checkFields_eq, List.filter_flatMap]
    have hlists := Lists.entries (fun p => issueAt (textFrom path p))
      (fun entry => (r.checkAt (.undeclaredField (keyedPath path entry.1))
        (keyedPath path entry.1) (r.graph.slotOf? (some ref.key) entry.1) entry.2).filter keeps)
      (fun entry => r.FoundAt sought (r.graph.slotOf? (some ref.key) entry.1) entry.2) hkeys
      (fun entry hentry => lists_checkAt (hown _ _) (fun p _ => rfl) fun type =>
        h entry hentry type _)
    exact hlists.congr (fun p => (foundIn_struct_iff htype).symm) fun _ _ => rfl
  · rename_i hmap hstruct
    refine .nil fun p h => ?_
    cases h with
    | here htype => exact hstruct _ htype
    | field htype => exact hstruct _ htype
    | element htype => exact hmap _ htype

/-- So do the kept issues of a value.  The induction is on the document, since types may contain
themselves, and what its parts are checked against varies with its type. -/
theorem lists_check
    (hown : ∀ path slot? issue,
      (r.ownIssue? (.undeclaredField path) path slot?).filter keeps = some issue ↔
        sought slot? ∧ issue = issueAt path)
    {d : Document} (hd : d.Distinct) : r.ListsInside sought keeps issueAt d := by
  induction hd with
  | null => exact fun type path => .nil fun p h => by cases h
  | bool value => exact fun type path => .nil fun p h => by cases h
  | number value => exact fun type path => .nil fun p h => by cases h
  | string value => exact fun type path => .nil fun p h => by cases h
  | array _ ih => exact listsInside_array ih
  | object hkeys _ ih => exact listsInside_object hown hkeys ih

/-- So do those of a document, if it is so at the top as well. -/
theorem lists_found (issueOf : Position → Issue) {values : Document} (hvalues : values.Distinct)
    (hown : ∀ path slot? issue,
      (r.ownIssue? (.undeclaredField path) path slot?).filter keeps = some issue ↔
        sought slot? ∧ issue = issueAt path)
    (htop : ∀ name slot? issue,
      (r.ownIssue? (.unknownParameter name) name slot?).filter keeps = some issue ↔
        sought slot? ∧ issue = issueOf [.key name])
    (hissue : ∀ name, ∀ p ≠ [], issueOf (.key name :: p) = issueAt (textFrom name p)) :
    Lists issueOf (r.Found sought values)
      ((values.sorted.entries.flatMap r.checkParam).filter keeps) := by
  rw [Document.entries_sorted, funext checkParam_eq, List.filter_flatMap]
  exact Lists.entries issueOf
    (fun entry => (r.checkAt (.unknownParameter entry.1) entry.1
      (r.graph.slotOf? none entry.1) entry.2).filter keeps)
    (fun entry => r.FoundAt sought (r.graph.slotOf? none entry.1) entry.2) hvalues.keys_nodup
    fun entry hentry => lists_checkAt (htop _ _) (hissue entry.1) fun type =>
      lists_check hown (hvalues.of_mem_entries hentry) type entry.1

end

end Resolver

end AnnotatedValues
