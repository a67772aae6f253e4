import AnnotatedValues.Proofs.Resolved.Resolution
import AnnotatedValues.Validation

/-!
# Validation of values documents

The problems of a value are fields that are not declared and types without a
schema, and where no name is undefined there are none of the latter.  A key at
the top is reported exactly if it is no parameter's.  Dropping repeated problems
neither adds one nor drops all.
-/

namespace AnnotatedValues

/-- The name of the type that is reported to have no schema. -/
def Issue.schemaless? : Issue → Option String
  | .noSchema name _ => some name
  | .unknownParameter _ | .undeclaredField _ => none

namespace Resolver

variable {r : Resolver} {name place : String}

/-! ## Entries -/

/-- The problems of an entry: of its value, or that there is no slot for its key. -/
def checkAt (r : Resolver) (missing : Issue) (path : String) (slot? : Option Slot)
    (value : Document) : List Issue :=
  match slot? with
  | some slot =>
    match r.resolveSlot slot with
    | .ok type => r.check type path value
    | .error ⟨name⟩ => [.noSchema name path]
  | none => [missing]

theorem checkParam_eq (entry : String × Document) :
    r.checkParam entry = r.checkAt (.unknownParameter entry.1) entry.1
      (r.graph.slotOf? none entry.1) entry.2 := by
  unfold checkParam checkAt TypeGraph.slotOf?
  cases r.graph.param? entry.1 with
  | none => rfl
  | some key => rfl

theorem checkFields_cons (owner path : String) (entry : String × Document)
    (entries : List (String × Document)) :
    r.checkFields owner path (entry :: entries) =
      r.checkAt (.undeclaredField (keyedPath path entry.1)) (keyedPath path entry.1)
        (r.graph.slotOf? (some owner) entry.1) entry.2 ++ r.checkFields owner path entries := by
  rw [checkFields]
  unfold checkAt TypeGraph.slotOf?
  dsimp only
  cases r.graph.field? owner entry.1 with
  | none => rfl
  | some field => rfl

/-! ## Problems inside values -/

/-- A problem that no object inside a value has: neither a field that is not declared, nor one with
a type that has no schema. -/
structure Foreign (r : Resolver) (issue : Issue) : Prop where
  declared : ∀ path, issue ≠ .undeclaredField path
  typed : ∀ {owner key slot undefined}, r.graph.slotOf? (some owner) key = some slot →
    r.resolveSlot slot = .error ⟨undefined⟩ → ∀ path, issue ≠ .noSchema undefined path

theorem not_mem_checkAt {issue missing : Issue} {path : String} {slot? : Option Slot}
    (hmissing : issue ≠ missing)
    (htyped : ∀ {slot undefined}, slot? = some slot → r.resolveSlot slot = .error ⟨undefined⟩ →
      issue ≠ .noSchema undefined path)
    {value : Document} (hvalue : ∀ type, issue ∉ r.check type path value) :
    issue ∉ r.checkAt missing path slot? value := by
  unfold checkAt
  cases slot? with
  | none => exact fun h => hmissing (List.mem_singleton.mp h)
  | some slot =>
      dsimp only
      cases hslot : r.resolveSlot slot with
      | ok type => exact hvalue type
      | error e => exact fun h => htyped rfl hslot (List.mem_singleton.mp h)

namespace Foreign

variable {issue : Issue}

mutual

theorem not_mem_check (h : r.Foreign issue) (type : Resolved) (path : String) :
    (d : Document) → issue ∉ r.check type path d
  | .array items => by
      rw [check]
      split
      · exact not_mem_checkItems h _ path 0 items
      · exact List.not_mem_nil
  | .object entries => by
      rw [check]
      split
      · exact not_mem_checkElements h _ path entries
      · exact not_mem_checkFields h _ path entries
      · exact List.not_mem_nil
  | .null => by simp [check]
  | .bool _ => by simp [check]
  | .number _ => by simp [check]
  | .string _ => by simp [check]
termination_by structural d => d

theorem not_mem_checkItems (h : r.Foreign issue) (type : Resolved) (path : String) (i : Nat) :
    (items : List Document) → issue ∉ r.checkItems type path i items
  | [] => by simp [checkItems]
  | item :: items => by
      rw [checkItems, List.mem_append, not_or]
      exact ⟨not_mem_check h type _ item, not_mem_checkItems h type path (i + 1) items⟩
termination_by structural items => items

theorem not_mem_checkElements (h : r.Foreign issue) (type : Resolved) (path : String) :
    (entries : List (String × Document)) → issue ∉ r.checkElements type path entries
  | [] => by simp [checkElements]
  | (key, value) :: entries => by
      rw [checkElements, List.mem_append, not_or]
      exact ⟨not_mem_check h type _ value, not_mem_checkElements h type path entries⟩
termination_by structural entries => entries

theorem not_mem_checkFields (h : r.Foreign issue) (owner path : String) :
    (entries : List (String × Document)) → issue ∉ r.checkFields owner path entries
  | [] => by simp [checkFields]
  | (key, value) :: entries => by
      rw [checkFields_cons, List.mem_append, not_or]
      exact ⟨not_mem_checkAt (h.declared _) (fun hslot herror => h.typed hslot herror _) fun type =>
          not_mem_check h type _ value,
        not_mem_checkFields h owner path entries⟩
termination_by structural entries => entries

end

end Foreign

/-! ## Types without a schema -/

/-- A slot of a name has a type if no name is undefined. -/
theorem Complete.resolveSlot_ne_error (hr : r.Complete) {owner? : Option String} {key : String}
    {slot : Slot} (hslot : r.graph.slotOf? owner? key = some slot) (e : Unresolved) :
    r.resolveSlot slot ≠ .error e := by
  intro herror
  obtain ⟨type, htype⟩ := hr.exists_resolveSlot (hr.wellFormed.hasMember_of_slotOf? hslot)
  rw [htype] at herror
  cases herror

theorem Complete.foreign_noSchema (hr : r.Complete) (name place : String) :
    r.Foreign (.noSchema name place) where
  declared := fun _ h => by cases h
  typed := fun hslot herror => absurd herror (hr.resolveSlot_ne_error hslot _)

theorem noSchema_not_mem_checkParam (hr : r.Complete) (entry : String × Document) :
    Issue.noSchema name place ∉ r.checkParam entry := by
  rw [checkParam_eq]
  have hmissing : Issue.noSchema name place ≠ .unknownParameter entry.1 := fun h => by cases h
  exact not_mem_checkAt hmissing
    (fun hslot herror => absurd herror (hr.resolveSlot_ne_error hslot _))
    fun type => (hr.foreign_noSchema name place).not_mem_check type _ entry.2

/-! ## Keys that are no parameter's -/

theorem foreign_unknownParameter (r : Resolver) (name : String) :
    r.Foreign (.unknownParameter name) where
  declared := fun _ h => by cases h
  typed := fun _ _ _ h => by cases h

theorem unknownParameter_mem_checkParam_iff {entry : String × Document} :
    Issue.unknownParameter name ∈ r.checkParam entry ↔
      entry.1 = name ∧ r.graph.param? name = none := by
  constructor
  · intro h
    unfold checkParam at h
    split at h
    · rename_i hkey
      split at h
      · exact absurd h ((foreign_unknownParameter r name).not_mem_check _ _ _)
      · cases List.mem_singleton.mp h
    · rename_i hkey
      cases List.mem_singleton.mp h
      exact ⟨rfl, hkey⟩
  · rintro ⟨rfl, hkey⟩
    rw [checkParam, hkey]
    exact List.mem_singleton_self _

/-! ## Repeated problems -/

theorem mem_of_mem_dropRepeated {seen : List String} {issues : List Issue} {issue : Issue}
    (h : issue ∈ dropRepeated seen issues) : issue ∈ issues := by
  induction issues generalizing seen with
  | nil => cases h
  | cons first issues ih =>
      unfold dropRepeated at h
      split at h
      · cases h
      · rename_i heq
        cases heq
        split at h
        · exact List.mem_cons_of_mem _ (ih h)
        · rcases List.mem_cons.mp h with rfl | h
          · exact List.mem_cons_self
          · exact List.mem_cons_of_mem _ (ih h)
      · rename_i heq
        cases heq
        rcases List.mem_cons.mp h with rfl | h
        · exact List.mem_cons_self
        · exact List.mem_cons_of_mem _ (ih h)

/-- Only types without a schema are reported once. -/
theorem mem_dropRepeated {issue : Issue} (hother : ∀ name path, issue ≠ .noSchema name path)
    {seen : List String} {issues : List Issue} (h : issue ∈ issues) :
    issue ∈ dropRepeated seen issues := by
  induction issues generalizing seen with
  | nil => cases h
  | cons first issues ih =>
      rcases List.mem_cons.mp h with rfl | hrest
      · cases issue with
        | unknownParameter key => exact List.mem_cons_self
        | undeclaredField path => exact List.mem_cons_self
        | noSchema name path => exact absurd rfl (hother name path)
      · cases first with
        | unknownParameter key => exact List.mem_cons_of_mem _ (ih hrest)
        | undeclaredField path => exact List.mem_cons_of_mem _ (ih hrest)
        | noSchema name path =>
            rw [dropRepeated]
            split
            · exact ih hrest
            · exact List.mem_cons_of_mem _ (ih hrest)

theorem dropRepeated_eq_nil_iff {issues : List Issue} :
    dropRepeated [] issues = [] ↔ issues = [] := by
  cases issues with
  | nil => simp [dropRepeated]
  | cons issue issues => cases issue <;> simp [dropRepeated]

/-- No run of the validator reports a type without a schema. -/
theorem noSchema_not_mem_issues (hr : r.Complete) (values : Document) :
    Issue.noSchema name place ∉ r.issues values := by
  intro h
  obtain ⟨entry, -, hmem⟩ := List.mem_flatMap.mp (mem_of_mem_dropRepeated h)
  exact noSchema_not_mem_checkParam hr entry hmem

/-- A key at the top is reported exactly if it is no parameter's. -/
theorem unknownParameter_mem_issues_iff {values : Document} :
    Issue.unknownParameter name ∈ r.issues values ↔
      name ∈ values.sorted.entries.map Prod.fst ∧ r.graph.param? name = none := by
  have hother : ∀ undefined path, Issue.unknownParameter name ≠ .noSchema undefined path :=
    fun _ _ h => by cases h
  constructor
  · intro h
    obtain ⟨entry, hentry, hmem⟩ := List.mem_flatMap.mp (mem_of_mem_dropRepeated h)
    obtain ⟨rfl, hkey⟩ := unknownParameter_mem_checkParam_iff.mp hmem
    exact ⟨List.mem_map.mpr ⟨entry, hentry, rfl⟩, hkey⟩
  · rintro ⟨hname, hkey⟩
    obtain ⟨entry, hentry, rfl⟩ := List.mem_map.mp hname
    exact mem_dropRepeated hother (List.mem_flatMap.mpr
      ⟨entry, hentry, unknownParameter_mem_checkParam_iff.mpr ⟨rfl, hkey⟩⟩)

theorem validate_eq_ok_iff {values : Document} :
    r.validate values = .ok () ↔ ∀ entry ∈ values.sorted.entries, r.checkParam entry = [] := by
  have hissues : r.validate values = .ok () ↔ r.issues values = [] := by
    unfold validate
    cases r.issues values with
    | nil => simp
    | cons issue issues => simp
  rw [hissues, issues, dropRepeated_eq_nil_iff, List.flatMap_eq_nil_iff]

/-! ## Resolvers that read values alike -/

/-- Two resolvers find the same slots for the entries of objects, and the same types at slots. -/
structure ReadsAlike (r r' : Resolver) : Prop where
  slotOf?_eq : r.graph.slotOf? = r'.graph.slotOf?
  resolveSlot_eq : r.resolveSlot = r'.resolveSlot

namespace ReadsAlike

variable {r' : Resolver}

/-- An entry has the same problems if its value has, whatever its type. -/
theorem checkAt_eq (h : r.ReadsAlike r') {missing : Issue} {path : String} {slot? : Option Slot}
    {value : Document} (hvalue : ∀ type, r.check type path value = r'.check type path value) :
    r.checkAt missing path slot? value = r'.checkAt missing path slot? value := by
  unfold checkAt
  rw [h.resolveSlot_eq]
  split
  · split
    · exact hvalue _
    · rfl
  · rfl

mutual

theorem check_eq (h : r.ReadsAlike r') (type : Resolved) (path : String) :
    (d : Document) → r.check type path d = r'.check type path d
  | .null => rfl
  | .bool _ => rfl
  | .number _ => rfl
  | .string _ => rfl
  | .array items => by
      rw [check, check]
      split
      · exact checkItems_eq h _ path 0 items
      · rfl
  | .object entries => by
      rw [check, check]
      split
      · exact checkElements_eq h _ path entries
      · exact checkFields_eq h _ path entries
      · rfl
termination_by structural d => d

theorem checkItems_eq (h : r.ReadsAlike r') (type : Resolved) (path : String) (i : Nat) :
    (items : List Document) → r.checkItems type path i items = r'.checkItems type path i items
  | [] => rfl
  | item :: items => by rw [checkItems, checkItems, check_eq h, checkItems_eq h]
termination_by structural items => items

theorem checkElements_eq (h : r.ReadsAlike r') (type : Resolved) (path : String) :
    (entries : List (String × Document)) →
      r.checkElements type path entries = r'.checkElements type path entries
  | [] => rfl
  | (key, value) :: entries => by
      rw [checkElements, checkElements, check_eq h, checkElements_eq h]
termination_by structural entries => entries

theorem checkFields_eq (h : r.ReadsAlike r') (owner path : String) :
    (entries : List (String × Document)) →
      r.checkFields owner path entries = r'.checkFields owner path entries
  | [] => rfl
  | (key, value) :: entries => by
      rw [checkFields_cons, checkFields_cons, h.slotOf?_eq, checkFields_eq h owner path entries]
      rw [h.checkAt_eq fun type => check_eq h type _ value]
termination_by structural entries => entries

end

/-- They report the same problems, -/
theorem issues_eq (h : r.ReadsAlike r') : r.issues = r'.issues := by
  have hparam : r.checkParam = r'.checkParam := by
    funext entry
    rw [checkParam_eq, checkParam_eq, h.slotOf?_eq]
    exact h.checkAt_eq fun type => h.check_eq type _ entry.2
  funext values
  rw [issues, issues, hparam]

/-- and the same documents are valid. -/
theorem validate_eq (h : r.ReadsAlike r') : r.validate = r'.validate := by
  funext values
  rw [validate, validate, h.issues_eq]

end ReadsAlike

end Resolver

end AnnotatedValues
