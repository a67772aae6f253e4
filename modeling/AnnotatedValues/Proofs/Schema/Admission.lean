import AnnotatedValues.Proofs.Keyed
import AnnotatedValues.Proofs.Schema.Compile

/-!
# Keys that a schema admits

A schema document admits the keys of a value by its keywords for items,
properties and further entries.  It takes no notice of notes, and none of the
order of entries.
-/

namespace AnnotatedValues

namespace Schema

/-! ## Admission by keywords -/

def preserves (node : Document) : Bool :=
  node.get? "x-kubernetes-preserve-unknown-fields" == some (.bool true)

mutual

/-- Whether a schema document admits the keys in a value: those of objects in every item of an
array, and, if the node is for objects and names their fields, only the names of fields. -/
def admitsKeys (node : Document) : Document → Bool
  | .array items =>
    match node.get? "items" with
    | some schema => admitsItems schema items
    | none => true
  | .object entries =>
    if node.get? "type" == some (.string "object") && !preserves node then
      match node.get? "additionalProperties" with
      | some schema => admitsValues schema entries
      | none => admitsFields ((node.get? "properties").getD (.object [])) entries
    else true
  | .null | .bool _ | .number _ | .string _ => true
termination_by structural d => d

def admitsItems (schema : Document) : List Document → Bool
  | [] => true
  | item :: items => admitsKeys schema item && admitsItems schema items
termination_by structural items => items

def admitsValues (schema : Document) : List (String × Document) → Bool
  | [] => true
  | (_, value) :: entries => admitsKeys schema value && admitsValues schema entries
termination_by structural entries => entries

def admitsFields (properties : Document) : List (String × Document) → Bool
  | [] => true
  | (key, value) :: entries =>
    (match properties.get? key with
      | some schema => admitsKeys schema value
      | none => false) && admitsFields properties entries
termination_by structural entries => entries

end

theorem admitsKeys_array (node : Document) (items : List Document) :
    admitsKeys node (.array items) =
      match node.get? "items" with
      | some schema => admitsItems schema items
      | none => true := rfl

theorem admitsKeys_object (node : Document) (entries : List (String × Document)) :
    admitsKeys node (.object entries) =
      if node.get? "type" == some (.string "object") && !preserves node then
        match node.get? "additionalProperties" with
        | some schema => admitsValues schema entries
        | none => admitsFields ((node.get? "properties").getD (.object [])) entries
      else true := rfl

theorem admitsItems_iff {schema : Document} {items : List Document} :
    admitsItems schema items = true ↔ ∀ item ∈ items, admitsKeys schema item = true := by
  induction items with
  | nil => simp [admitsItems]
  | cons item items ih => rw [admitsItems, Bool.and_eq_true, ih, List.forall_mem_cons]

theorem admitsValues_iff {schema : Document} {entries : List (String × Document)} :
    admitsValues schema entries = true ↔ ∀ e ∈ entries, admitsKeys schema e.2 = true := by
  induction entries with
  | nil => simp [admitsValues]
  | cons entry entries ih => rw [admitsValues, Bool.and_eq_true, ih, List.forall_mem_cons]

theorem admitsFields_iff {properties : Document} {entries : List (String × Document)} :
    admitsFields properties entries = true ↔ ∀ e ∈ entries, ∃ schema,
      properties.get? e.1 = some schema ∧ admitsKeys schema e.2 = true := by
  induction entries with
  | nil => simp [admitsFields]
  | cons entry entries ih =>
      rw [admitsFields, Bool.and_eq_true, ih, List.forall_mem_cons]
      cases properties.get? entry.1 with
      | none => simp
      | some schema => simp

/-! ## The order of entries -/

theorem forall_mem_sortEntries {entries : List (String × Document)}
    {p : String × Document → Prop} :
    (∀ e ∈ Document.sortEntries (entries.map fun e => (e.1, e.2.sorted)), p e) ↔
      ∀ e ∈ entries, p (e.1, e.2.sorted) := by
  simp only [Keyed.mem_sortEntries, List.forall_mem_map]

mutual

theorem admitsKeys_sorted :
    (d : Document) → ∀ node, admitsKeys node d.sorted = true ↔ admitsKeys node d = true
  | .array items, node => by
      have hitems := admitsKeys_sortedItems items
      rw [Document.sorted_array, admitsKeys_array, admitsKeys_array]
      cases node.get? "items" with
      | none => exact Iff.rfl
      | some schema =>
          simp only [admitsItems_iff, List.forall_mem_map]
          exact forall₂_congr fun item hitem => hitems item hitem schema
  | .object entries, node => by
      have hentries := admitsKeys_sortedEntries entries
      rw [Document.sorted_object, admitsKeys_object, admitsKeys_object]
      split
      · cases node.get? "additionalProperties" with
        | some schema =>
            simp only [admitsValues_iff, forall_mem_sortEntries]
            exact forall₂_congr fun e he => hentries e he schema
        | none =>
            simp only [admitsFields_iff, forall_mem_sortEntries]
            exact forall₂_congr fun e he => exists_congr fun schema =>
              and_congr_right fun _ => hentries e he schema
      · exact Iff.rfl
  | .null, node => by rw [Document.sorted]
  | .bool _, node => by rw [Document.sorted]
  | .number _, node => by rw [Document.sorted]
  | .string _, node => by rw [Document.sorted]
termination_by structural d => d

theorem admitsKeys_sortedItems :
    (items : List Document) → ∀ item ∈ items, ∀ node,
      admitsKeys node item.sorted = true ↔ admitsKeys node item = true
  | [] => fun _ h => absurd h List.not_mem_nil
  | item :: items =>
      List.forall_mem_cons.mpr ⟨admitsKeys_sorted item, admitsKeys_sortedItems items⟩
termination_by structural items => items

theorem admitsKeys_sortedEntries :
    (entries : List (String × Document)) → ∀ e ∈ entries, ∀ node,
      admitsKeys node e.2.sorted = true ↔ admitsKeys node e.2 = true
  | [] => fun _ h => absurd h List.not_mem_nil
  | (_, value) :: entries =>
      List.forall_mem_cons.mpr ⟨admitsKeys_sorted value, admitsKeys_sortedEntries entries⟩
termination_by structural entries => entries

end

/-! ## Nodes of schemas -/

def noteKeywords : List String := ["description", "enum", "default"]

/-- Keywords other than those of notes are those of the kind of value and its parts. -/
theorem get?_keywords (notes : Notes) (kind parts : List (String × Document)) {key : String}
    (hkey : key ∉ noteKeywords) :
    (keywords notes kind parts).get? key = (kind ++ parts).lookup key := by
  simp only [noteKeywords, List.mem_cons, List.not_mem_nil, or_false, not_or] at hkey
  obtain ⟨hdescription, henum, hdefault⟩ := hkey
  have hnone : ∀ {pairs : List (String × Document)}, (∀ e ∈ pairs, e.1 ≠ key) →
      pairs.lookup key = none := by
    intro pairs h
    exact List.lookup_eq_none_iff.mpr fun e he => bne_iff_ne.mpr (h e he).symm
  have hdescriptions : ((notes.description?.map fun d =>
      ("description", Document.string d)).toList).lookup key = none :=
    hnone (by cases notes.description? <;> simp [Ne.symm hdescription])
  have hvalues : (if notes.values.isEmpty then [] else
      [("enum", Document.array notes.values)]).lookup key = none :=
    hnone (by cases notes.values.isEmpty <;> simp [Ne.symm henum])
  have hdefaults : ((notes.default?.map fun d => ("default", d)).toList).lookup key = none :=
    hnone (by cases notes.default? <;> simp [Ne.symm hdefault])
  simp only [keywords, Document.get?, Document.entries, List.lookup_append,
    hdescriptions, hvalues, hdefaults,
    Option.none_or, Option.or_none]

/-- Keywords of notes are those of the notes alone. -/
theorem get?_keywords_notes (notes : Notes) (kind parts : List (String × Document)) {key : String}
    (hkind : kind.lookup key = none) (hparts : parts.lookup key = none) :
    (keywords notes kind parts).get? key = (keywords notes [] []).get? key := by
  simp only [keywords, Document.get?, Document.entries, List.lookup_append, List.lookup_nil,
    hkind, hparts, Option.or_none]

theorem get?_toDocument_notes (s : Schema) :
    ∀ key ∈ noteKeywords, s.toDocument.get? key = (keywords s.notes [] []).get? key := by
  intro key hkey
  obtain rfl | rfl | rfl : key = "description" ∨ key = "enum" ∨ key = "default" := by
    simpa [noteKeywords] using hkey
  all_goals
    cases s with
    | any notes => rfl
    | scalar notes type format? =>
        refine get?_keywords_notes _ _ _ ?_ rfl
        cases format? <;> rfl
    | quantity notes => exact get?_keywords_notes _ _ _ rfl rfl
    | freeForm notes => exact get?_keywords_notes _ _ _ rfl rfl
    | array notes items => exact get?_keywords_notes _ _ _ rfl rfl
    | map notes values => exact get?_keywords_notes _ _ _ rfl rfl
    | object notes properties =>
        refine get?_keywords_notes _ _ _ rfl ?_
        cases properties <;> rfl

theorem get?_toEntries (properties : List (String × Schema)) (key : String) :
    (Document.object (toEntries properties)).get? key =
      (properties.lookup key).map toDocument := by
  change (toEntries properties).lookup key = _
  induction properties with
  | nil => rfl
  | cons property properties ih =>
      rw [toEntries, List.lookup_cons, List.lookup_cons]
      cases key == property.1 with
      | true => rfl
      | false => exact ih

variable {notes : Notes} {docs : List Document} {entries : List (String × Document)}

theorem admitsKeys_array_items (items : Schema) :
    admitsKeys (array notes items).toDocument (.array docs) =
      admitsItems items.toDocument docs := by
  rw [admitsKeys_array, toDocument_array, get?_keywords _ _ _ (by decide)]
  rfl

theorem admitsKeys_map_entries (values : Schema) :
    admitsKeys (map notes values).toDocument (.object entries) =
      admitsValues values.toDocument entries := by
  rw [admitsKeys_object, toDocument_map, preserves, get?_keywords _ _ _ (by decide),
    get?_keywords _ _ _ (by decide),
    get?_keywords _ _ _ (by decide)]
  rfl

theorem admitsKeys_object_entries (properties : List (String × Schema)) :
    admitsKeys (object notes properties).toDocument (.object entries) =
      admitsFields (.object (toEntries properties)) entries := by
  rw [admitsKeys_object, toDocument_object, preserves, get?_keywords _ _ _ (by decide),
    get?_keywords _ _ _ (by decide),
    get?_keywords _ _ _ (by decide),
    get?_keywords _ _ _ (by decide)]
  cases properties with
  | nil => rfl
  | cons property properties => rfl

/-- A node without items and not for objects, or one that preserves unknown fields, admits all. -/
theorem admitsKeys_of_open {node : Document} (hitems : node.get? "items" = none)
    (hopen : (node.get? "type" == some (.string "object") && !preserves node) = false)
    (d : Document) : admitsKeys node d = true := by
  cases d with
  | array items => rw [admitsKeys_array, hitems]
  | object entries =>
      rw [admitsKeys_object, hopen]
      rfl
  | null => rfl
  | bool value => rfl
  | number value => rfl
  | string value => rfl

theorem admitsKeys_scalar (type : ScalarType) (format? : Option String) (d : Document) :
    admitsKeys (scalar notes type format?).toDocument d = true := by
  refine admitsKeys_of_open ?_ ?_ d
  · rw [toDocument_scalar, get?_keywords _ _ _ (by decide)]
    cases format? <;> rfl
  · rw [toDocument_scalar, preserves, get?_keywords _ _ _ (by decide)]
    cases type <;> rfl

theorem admitsKeys_quantity (d : Document) :
    admitsKeys (quantity notes).toDocument d = true := by
  refine admitsKeys_of_open ?_ ?_ d
  · rw [toDocument_quantity, get?_keywords _ _ _ (by decide)]
    rfl
  · rw [toDocument_quantity, preserves, get?_keywords _ _ _ (by decide)]
    rfl

theorem admitsKeys_freeForm (d : Document) :
    admitsKeys (freeForm notes).toDocument d = true := by
  refine admitsKeys_of_open ?_ ?_ d
  · rw [toDocument_freeForm, get?_keywords _ _ _ (by decide)]
    rfl
  · rw [toDocument_freeForm, preserves, get?_keywords _ _ _ (by decide),
      get?_keywords _ _ _ (by decide)]
    rfl

theorem admitsKeys_array_entries (items : Schema) :
    admitsKeys (array notes items).toDocument (.object entries) = true := by
  rw [admitsKeys_object, toDocument_array, get?_keywords _ _ _ (by decide)]
  rfl

theorem admitsKeys_map_items (values : Schema) :
    admitsKeys (map notes values).toDocument (.array docs) = true := by
  rw [admitsKeys_array, toDocument_map, get?_keywords _ _ _ (by decide)]
  rfl

theorem admitsKeys_object_items (properties : List (String × Schema)) :
    admitsKeys (object notes properties).toDocument (.array docs) = true := by
  rw [admitsKeys_array, toDocument_object, get?_keywords _ _ _ (by decide)]
  cases properties <;> rfl

theorem get?_withNotes (f : Notes → Notes) (s : Schema) (key : String)
    (hkey : key ∉ noteKeywords) :
    (s.withNotes f).toDocument.get? key = s.toDocument.get? key := by
  cases s <;> exact (get?_keywords _ _ _ hkey).trans (get?_keywords _ _ _ hkey).symm

/-- Notes do not matter. -/
theorem admitsKeys_withNotes (f : Notes → Notes) (s : Schema) (d : Document) :
    admitsKeys (s.withNotes f).toDocument d = admitsKeys s.toDocument d := by
  have hitems := get?_withNotes f s "items" (by decide)
  have htype := get?_withNotes f s "type" (by decide)
  have hpreserve := get?_withNotes f s "x-kubernetes-preserve-unknown-fields" (by decide)
  have hvalues := get?_withNotes f s "additionalProperties" (by decide)
  have hproperties := get?_withNotes f s "properties" (by decide)
  cases d with
  | array docs => rw [admitsKeys_array, admitsKeys_array, hitems]
  | object entries =>
      rw [admitsKeys_object, admitsKeys_object, preserves, preserves, htype, hpreserve, hvalues, hproperties]
  | null => rfl
  | bool value => rfl
  | number value => rfl
  | string value => rfl

end Schema

end AnnotatedValues
