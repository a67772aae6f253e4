import AnnotatedValues.Proofs.Reading
import AnnotatedValues.Proofs.Resolved.Reachability
import AnnotatedValues.Proofs.Schema.Admission
import AnnotatedValues.Proofs.Validation

/-!
# Validation and schema agree

The validator follows the values with the resolved types, the schema is expanded
from the types alone.  Both make the same decision at every value, as long as
the expansion has not cut a struct that is expanded already; a cut only admits
more, and without recursive structs there is none.
-/

namespace AnnotatedValues

open Fallible Relation

/-! ## Agreement up to cuts -/

/-- One decision implies the other, and conversely under a condition. -/
structure Refines (exact p q : Prop) : Prop where
  forward : p → q
  backward : exact → q → p

namespace Refines

variable {exact p q p' q' : Prop}

theorem of_iff (h : p ↔ q) : Refines exact p q := ⟨h.mp, fun _ => h.mpr⟩

theorem both (h : Refines exact p q) (h' : Refines exact p' q') :
    Refines exact (p ∧ p') (q ∧ q') :=
  ⟨And.imp h.forward h'.forward, fun e => And.imp (h.backward e) (h'.backward e)⟩

end Refines

namespace Resolver

variable {r : Resolver}

/-- No struct occurs in itself. -/
def Acyclic (r : Resolver) : Prop := ∀ key, ¬ TransGen r.Contains key key

/-- If fields contain no structs, none occurs in itself. -/
theorem acyclic_of_successors_eq_nil (h : ∀ x ∈ r.graph.fields, r.successors x.owner = []) :
    r.Acyclic := by
  intro key hcycle
  obtain ⟨other, hedge, -⟩ := TransGen.head'_iff.mp hcycle
  have hmem : other ∈ r.successors key := hedge
  obtain ⟨x, hx, -⟩ := mem_successors.mp hedge
  obtain ⟨hfield, rfl⟩ := TypeGraph.mem_fieldsOf.mp hx
  rw [h x hfield] at hmem
  cases hmem

/-- The structs of `stack` are being expanded, each inside the next, with one round of fuel left
for every other node and one more, and lead to the structs in the type. -/
structure Expanding (r : Resolver) (fuel : Nat) (stack : List String) (t : Resolved) : Prop where
  acyclic : r.Acyclic
  nodup : stack.Nodup
  known : ∀ key ∈ stack, key ∈ r.graph.nodes.map Prod.fst
  budget : fuel + stack.length = r.graph.nodes.length + 1
  leads : ∀ ref, t.innermost? = some ref →
    ref.key ∈ r.graph.nodes.map Prod.fst ∧ ∀ key ∈ stack, TransGen r.Contains key ref.key

namespace Expanding

variable {fuel : Nat} {stack : List String} {t : Resolved}

theorem of_innermost?_eq (h : r.Expanding fuel stack t) {t' : Resolved}
    (ht : t'.innermost? = t.innermost?) : r.Expanding fuel stack t' :=
  ⟨h.acyclic, h.nodup, h.known, h.budget, fun ref href => h.leads ref (ht.symm.trans href)⟩

theorem not_mem (h : r.Expanding fuel stack t) {ref : StructRef} (href : t.innermost? = some ref) :
    ref.key ∉ stack :=
  fun hmem => h.acyclic ref.key ((h.leads ref href).2 ref.key hmem)

theorem fuel_pos (h : r.Expanding fuel stack t) : 0 < fuel := by
  have hlength : stack.length ≤ (r.graph.nodes.map Prod.fst).length :=
    (h.nodup.subperm h.known).length_le
  have hbudget := h.budget
  rw [List.length_map] at hlength
  omega

/-- Expanding a field of the struct. -/
theorem field (h : r.Expanding (fuel + 1) stack t) (hg : r.graph.WellFormed) {ref : StructRef}
    (href : t.innermost? = some ref) {name : String} {field : Field}
    (hfield : r.graph.field? ref.key name = some field) {t' : Resolved}
    (ht' : r.resolveSlot (.field ref.key name) = .ok t') :
    r.Expanding fuel (ref.key :: stack) t' := by
  have hedge : ∀ ref', t'.innermost? = some ref' → r.Contains ref.key ref'.key := by
    intro ref' href'
    obtain ⟨hmem, howner, hname⟩ := TypeGraph.field?_eq_some hfield
    refine mem_successors.mpr ⟨field, TypeGraph.mem_fieldsOf.mpr ⟨hmem, howner⟩, t', ref', ?_,
      href', rfl⟩
    rw [hname]
    exact ht'
  refine ⟨h.acyclic, List.nodup_cons.mpr ⟨h.not_mem href, h.nodup⟩, ?_, ?_, ?_⟩
  · intro key hkey
    rcases List.mem_cons.mp hkey with rfl | hkey
    · exact (h.leads ref href).1
    · exact h.known key hkey
  · have hbudget := h.budget
    rw [List.length_cons]
    omega
  · intro ref' href'
    refine ⟨mem_keys_of_isType (isType_of_contains hg (hedge ref' href')), fun key hkey => ?_⟩
    rcases List.mem_cons.mp hkey with rfl | hkey
    · exact TransGen.single (hedge ref' href')
    · exact ((h.leads ref href).2 key hkey).tail (hedge ref' href')

end Expanding

/-! ## Schemas by the form of the type -/

theorem pointee_ne_pointer (t inner : Resolved) : t.pointee ≠ .pointer inner := by
  induction t with
  | pointer _ ih => exact ih
  | _ => exact fun h => by cases h

theorem innermost?_of_pointee_eq {t t' : Resolved} (h : t.pointee = t') :
    t'.innermost? = t.innermost? := by
  subst h
  induction t with
  | pointer inner ih => exact ih
  | _ => rfl

variable {struct : StructRef → Except Unresolved Schema} {t : Resolved} {s : Schema}

theorem typeSchema_pointee (t : Resolved) : typeSchema struct t.pointee = typeSchema struct t := by
  induction t with
  | pointer inner ih => exact ih
  | _ => rfl

theorem admitsKeys_primitiveSchema (values : List Document) (p : Primitive) (d : Document) :
    Schema.admitsKeys (primitiveSchema values p).toDocument d = true := by
  cases p <;> exact Schema.admitsKeys_scalar _ _ d

theorem admitsKeys_semanticSchema (s : Semantic) (d : Document) :
    Schema.admitsKeys (semanticSchema s).toDocument d = true := by
  cases s with
  | quantity => exact Schema.admitsKeys_quantity d
  | duration => exact Schema.admitsKeys_scalar _ _ d
  | time => exact Schema.admitsKeys_scalar _ _ d
  | object => exact Schema.admitsKeys_freeForm d
  | emptyObject => exact Schema.admitsKeys_freeForm d

/-- Neither a pointer, nor a collection, nor a struct. -/
def IsLeaf : Resolved → Prop
  | .pointer _ | .array _ | .map _ | .struct _ => False
  | _ => True

/-- Values of a leaf are not checked, -/
theorem check_of_isLeaf (r : Resolver) (h : IsLeaf t.pointee) (path : String) (d : Document) :
    r.check t path d = [] := by
  cases d with
  | array items =>
      rw [check]
      split
      · rename_i ht
        rw [ht] at h
        exact h.elim
      · rfl
  | object entries =>
      rw [check]
      split
      · rename_i ht
        rw [ht] at h
        exact h.elim
      · rename_i ht
        rw [ht] at h
        exact h.elim
      · rfl
  | null => rfl
  | bool value => rfl
  | number value => rfl
  | string value => rfl

/-- nor are they restricted. -/
theorem admitsKeys_of_isLeaf (h : IsLeaf t) (hs : typeSchema struct t = .ok s) (d : Document) :
    Schema.admitsKeys s.toDocument d = true := by
  cases t with
  | primitive p =>
      cases hs
      exact admitsKeys_primitiveSchema [] p d
  | format name =>
      cases hs
      exact Schema.admitsKeys_scalar _ _ d
  | semantic s =>
      cases hs
      exact admitsKeys_semanticSchema s d
  | enum ref =>
      cases hs
      exact admitsKeys_primitiveSchema _ ref.base d
  | pointer inner => exact h.elim
  | array inner => exact h.elim
  | map inner => exact h.elim
  | struct ref => exact h.elim

/-- Behind its pointers a type is an array, a map, a struct, or one whose values are neither checked
nor restricted. -/
theorem typeSchema_cases (r : Resolver) (h : typeSchema struct t = .ok s) :
    (∃ elem items, t.pointee = .array elem ∧ typeSchema struct elem = .ok items ∧
      s = .array .none items) ∨
    (∃ elem values, t.pointee = .map elem ∧ typeSchema struct elem = .ok values ∧
      s = .map .none values) ∨
    (∃ ref, t.pointee = .struct ref ∧ struct ref = .ok s) ∨
    (∀ path d, r.check t path d = []) ∧ ∀ d, Schema.admitsKeys s.toDocument d = true := by
  rw [← typeSchema_pointee] at h
  have hunchecked := fun hleaf : IsLeaf t.pointee =>
    And.intro (check_of_isLeaf r hleaf) (admitsKeys_of_isLeaf hleaf h)
  cases ht : t.pointee with
  | pointer inner => exact absurd ht (pointee_ne_pointer t inner)
  | array elem =>
      rw [ht] at h
      obtain ⟨items, hitems, rfl⟩ := map_eq_ok_iff.mp h
      exact Or.inl ⟨elem, items, rfl, hitems, rfl⟩
  | map elem =>
      rw [ht] at h
      obtain ⟨values, hvalues, rfl⟩ := map_eq_ok_iff.mp h
      exact Or.inr (Or.inl ⟨elem, values, rfl, hvalues, rfl⟩)
  | struct ref =>
      rw [ht] at h
      exact Or.inr (Or.inr (Or.inl ⟨ref, rfl, h⟩))
  | _ =>
      rw [ht] at hunchecked
      exact Or.inr (Or.inr (Or.inr (hunchecked trivial)))

/-! ## Properties for members -/

/-- The properties are the schemas of the members at the slots that names have. -/
structure Describes (r : Resolver) (struct : StructRef → Except Unresolved Schema)
    (slot? : String → Option Slot) (properties : List (String × Schema)) : Prop where
  of_lookup : ∀ {name s}, properties.lookup name = some s →
    ∃ slot, slot? name = some slot ∧ r.memberSchema struct slot = .ok s
  isSome_lookup : ∀ {name slot}, slot? name = some slot → (properties.lookup name).isSome = true

/-- A struct is cut, or becomes an object with a property for each field. -/
theorem structSchema_cases {fuel : Nat} {stack : List String} {ref : StructRef}
    (h : r.structSchema fuel stack ref = .ok s) :
    ((fuel = 0 ∨ ref.key ∈ stack) ∧ s = .freeForm .none) ∨
      ∃ below properties, fuel = below + 1 ∧ s = .object .none properties ∧
        r.Describes (r.structSchema below (ref.key :: stack)) (r.graph.slotOf? (some ref.key))
          properties := by
  cases fuel with
  | zero =>
      cases h
      exact Or.inl ⟨Or.inl rfl, rfl⟩
  | succ below =>
      rw [structSchema] at h
      split at h
      · rename_i hcut
        cases h
        exact Or.inl ⟨Or.inr (List.contains_iff_mem.mp hcut), rfl⟩
      · obtain ⟨properties, hproperties, h⟩ := bind_eq_ok_iff.mp h
        rw [pure_eq_ok_iff] at h
        subst h
        refine Or.inr ⟨below, properties, rfl, rfl, ?_, ?_⟩
        · intro name s hlookup
          obtain ⟨field, hfield, rfl, hs⟩ := Keyed.exists_of_lookup_mapM hproperties hlookup
          refine ⟨.field ref.key field.name, ?_, hs⟩
          exact TypeGraph.slotOf?_some_eq_some_iff.mpr
            ⟨rfl, TypeGraph.hasMember_of_mem_fieldsOf hfield⟩
        · intro name slot hslot
          obtain ⟨-, hsome⟩ := TypeGraph.slotOf?_some_eq_some_iff.mp hslot
          obtain ⟨field, hfield⟩ := Option.isSome_iff_exists.mp hsome
          obtain ⟨hmem, howner, rfl⟩ := TypeGraph.field?_eq_some hfield
          exact Keyed.isSome_lookup_mapM hproperties
            (TypeGraph.mem_fieldsOf.mpr ⟨hmem, howner⟩)

/-- The schema of the parameters is an object with a property for each. -/
theorem specSchema_eq_ok (hg : r.graph.WellFormed) (h : r.specSchema = .ok s) :
    ∃ properties, s = .object .none properties ∧
      r.Describes (r.structSchema (r.graph.nodes.length + 1) []) (r.graph.slotOf? none)
        properties := by
  obtain ⟨properties, hproperties, h⟩ := bind_eq_ok_iff.mp h
  rw [pure_eq_ok_iff] at h
  subst h
  refine ⟨properties, rfl, ?_, ?_⟩
  · intro name s hlookup
    obtain ⟨key, hkey, rfl, hs⟩ := Keyed.exists_of_lookup_mapM hproperties hlookup
    refine ⟨.node key, ?_, hs⟩
    rw [TypeGraph.slotOf?, hg.param?_nameOf (TypeGraph.mem_sortedParams.mp hkey)]
    rfl
  · intro name slot hslot
    obtain ⟨key, hkey, -⟩ := Option.map_eq_some_iff.mp hslot
    rw [← TypeGraph.nameOf_of_param? hkey]
    exact Keyed.isSome_lookup_mapM hproperties
      (TypeGraph.mem_sortedParams.mpr (hg.hasMember_of_param? hkey))

/-! ## The same decision at every value -/

theorem memberSchema_eq_ok {slot : Slot} (h : r.memberSchema struct slot = .ok s) :
    ∃ type schema f, r.resolveSlot slot = .ok type ∧ typeSchema struct type = .ok schema ∧
      s = schema.withNotes f := by
  obtain ⟨type, htype, h⟩ := bind_eq_ok_iff.mp h
  obtain ⟨schema, hschema, h⟩ := bind_eq_ok_iff.mp h
  rw [pure_eq_ok_iff] at h
  exact ⟨type, schema, _, htype, hschema, h.symm⟩

section

variable {exact : Prop} {fuel : Nat} {stack : List String}

/-- An entry has a slot exactly if it has a property, and then the types agree. -/
theorem refines_checkAt {owner? : Option String} {properties : List (String × Schema)}
    (hproperties : r.Describes (r.structSchema fuel stack) (r.graph.slotOf? owner?) properties)
    {name path : String} {missing : Issue} {value : Document}
    (hexact : exact → ∀ slot t, r.graph.slotOf? owner? name = some slot →
      r.resolveSlot slot = .ok t → r.Expanding fuel stack t)
    (hvalue : ∀ t s, typeSchema (r.structSchema fuel stack) t = .ok s →
      (exact → r.Expanding fuel stack t) →
        Refines exact (r.check t path value = []) (Schema.admitsKeys s.toDocument value = true)) :
    Refines exact (r.checkAt missing path (r.graph.slotOf? owner? name) value = [])
      ((match (Document.object (Schema.toEntries properties)).get? name with
        | some schema => Schema.admitsKeys schema value
        | none => false) = true) := by
  rw [Schema.get?_toEntries]
  cases hslot : r.graph.slotOf? owner? name with
  | none =>
      have hlookup : properties.lookup name = none := by
        cases hlookup : properties.lookup name with
        | none => rfl
        | some s =>
            obtain ⟨slot, hslot', -⟩ := hproperties.of_lookup hlookup
            rw [hslot] at hslot'
            cases hslot'
      rw [hlookup]
      exact .of_iff (by simp [checkAt])
  | some slot =>
      obtain ⟨s, hlookup⟩ := Option.isSome_iff_exists.mp (hproperties.isSome_lookup hslot)
      obtain ⟨slot', hslot', hs⟩ := hproperties.of_lookup hlookup
      rw [hslot] at hslot'
      cases hslot'
      obtain ⟨type, schema, f, htype, hschema, rfl⟩ := memberSchema_eq_ok hs
      rw [hlookup, Option.map_some, checkAt]
      simp only [htype, Schema.admitsKeys_withNotes]
      exact hvalue type schema hschema fun e => hexact e slot type hslot htype

mutual

theorem refines_check (hg : r.graph.WellFormed) :
    (d : Document) → ∀ {fuel stack t s} (path : String),
      typeSchema (r.structSchema fuel stack) t = .ok s → (exact → r.Expanding fuel stack t) →
        Refines exact (r.check t path d = []) (Schema.admitsKeys s.toDocument d = true)
  | .array items => by
      intro path hs hexact
      rcases typeSchema_cases r hs with ⟨elem, schema, ht, helem, rfl⟩ |
        ⟨elem, schema, ht, -, rfl⟩ | ⟨ref, ht, hstruct⟩ | ⟨hcheck, hadmits⟩
      · rw [check, ht, Schema.admitsKeys_array_items]
        have hinner := innermost?_of_pointee_eq ht
        exact refines_checkItems hg items path 0 helem fun e => (hexact e).of_innermost?_eq hinner
      · rw [check, ht]
        exact .of_iff (by simp [Schema.admitsKeys_map_items])
      · rw [check, ht]
        rcases structSchema_cases hstruct with ⟨-, rfl⟩ | ⟨_, properties, -, rfl, -⟩
        · exact .of_iff (by simp [Schema.admitsKeys_freeForm])
        · exact .of_iff (by simp [Schema.admitsKeys_object_items])
      · exact .of_iff (by simp [hcheck, hadmits])
  | .object entries => by
      intro path hs hexact
      rcases typeSchema_cases r hs with ⟨elem, schema, ht, -, rfl⟩ |
        ⟨elem, schema, ht, helem, rfl⟩ | ⟨ref, ht, hstruct⟩ | ⟨hcheck, hadmits⟩
      · rw [check, ht]
        exact .of_iff (by simp [Schema.admitsKeys_array_entries])
      · rw [check, ht, Schema.admitsKeys_map_entries]
        have hinner := innermost?_of_pointee_eq ht
        exact refines_checkElements hg entries path helem fun e =>
          (hexact e).of_innermost?_eq hinner
      · have hinner := (innermost?_of_pointee_eq ht).symm
        rw [check, ht]
        rcases structSchema_cases hstruct with
          ⟨hcut, rfl⟩ | ⟨below, properties, rfl, rfl, hproperties⟩
        · -- A cut admits everything, and an exact expansion has none.
          refine ⟨fun _ => Schema.admitsKeys_freeForm _, fun e _ => ?_⟩
          rcases hcut with rfl | hmem
          · exact absurd (hexact e).fuel_pos (Nat.lt_irrefl 0)
          · exact absurd hmem ((hexact e).not_mem hinner)
        · rw [Schema.admitsKeys_object_entries]
          refine refines_checkFields hg entries path hproperties fun e name slot t' hslot ht' => ?_
          obtain ⟨rfl, hsome⟩ := TypeGraph.slotOf?_some_eq_some_iff.mp hslot
          obtain ⟨field, hfield⟩ := Option.isSome_iff_exists.mp hsome
          exact (hexact e).field hg hinner hfield ht'
      · exact .of_iff (by simp [hcheck, hadmits])
  | .null => fun _ _ _ => .of_iff (by simp [check, Schema.admitsKeys])
  | .bool _ => fun _ _ _ => .of_iff (by simp [check, Schema.admitsKeys])
  | .number _ => fun _ _ _ => .of_iff (by simp [check, Schema.admitsKeys])
  | .string _ => fun _ _ _ => .of_iff (by simp [check, Schema.admitsKeys])
termination_by structural d => d

theorem refines_checkItems (hg : r.graph.WellFormed) :
    (items : List Document) → ∀ {fuel stack t s} (path : String) (i : Nat),
      typeSchema (r.structSchema fuel stack) t = .ok s → (exact → r.Expanding fuel stack t) →
        Refines exact (r.checkItems t path i items = []) (Schema.admitsItems s.toDocument items = true)
  | [] => fun _ _ _ _ => .of_iff (by simp [checkItems, Schema.admitsItems])
  | item :: items => by
      intro path i hs hexact
      rw [checkItems, List.append_eq_nil_iff, Schema.admitsItems, Bool.and_eq_true]
      exact (refines_check hg item _ hs hexact).both
        (refines_checkItems hg items path (i + 1) hs hexact)
termination_by structural items => items

theorem refines_checkElements (hg : r.graph.WellFormed) :
    (entries : List (String × Document)) → ∀ {fuel stack t s} (path : String),
      typeSchema (r.structSchema fuel stack) t = .ok s → (exact → r.Expanding fuel stack t) →
        Refines exact (r.checkElements t path entries = [])
          (Schema.admitsValues s.toDocument entries = true)
  | [] => fun _ _ _ => .of_iff (by simp [checkElements, Schema.admitsValues])
  | (_, value) :: entries => by
      intro path hs hexact
      rw [checkElements, List.append_eq_nil_iff, Schema.admitsValues, Bool.and_eq_true]
      exact (refines_check hg value _ hs hexact).both
        (refines_checkElements hg entries path hs hexact)
termination_by structural entries => entries

theorem refines_checkFields (hg : r.graph.WellFormed) :
    (entries : List (String × Document)) → ∀ {fuel stack owner properties} (path : String),
      r.Describes (r.structSchema fuel stack) (r.graph.slotOf? (some owner)) properties →
        (exact → ∀ name slot t, r.graph.slotOf? (some owner) name = some slot →
          r.resolveSlot slot = .ok t → r.Expanding fuel stack t) →
        Refines exact (r.checkFields owner path entries = [])
          (Schema.admitsFields (.object (Schema.toEntries properties)) entries = true)
  | [] => fun _ _ _ => .of_iff (by simp [checkFields, Schema.admitsFields])
  | (name, value) :: entries => by
      intro path hproperties hexact
      rw [checkFields_cons, List.append_eq_nil_iff, Schema.admitsFields, Bool.and_eq_true]
      exact (refines_checkAt hproperties (fun e => hexact e name) fun t s hs ht =>
        refines_check hg value _ hs ht).both
          (refines_checkFields hg entries path hproperties hexact)
termination_by structural entries => entries

end

/-! ## The parameters -/

theorem expanding_of_resolveSlot (hg : r.graph.WellFormed) (hacyclic : r.Acyclic) {slot : Slot}
    {t : Resolved} (ht : r.resolveSlot slot = .ok t) :
    r.Expanding (r.graph.nodes.length + 1) [] t := by
  refine ⟨hacyclic, List.nodup_nil, fun _ h => absurd h List.not_mem_nil, rfl, ?_⟩
  intro ref href
  exact ⟨mem_keys_of_innermost? hg ht href,
    fun _ h => absurd h List.not_mem_nil⟩

theorem refines_checkParams (hg : r.graph.WellFormed) {properties : List (String × Schema)}
    (hproperties : r.Describes (r.structSchema (r.graph.nodes.length + 1) [])
      (r.graph.slotOf? none) properties) (entries : List (String × Document)) :
    Refines r.Acyclic (∀ entry ∈ entries, r.checkParam entry = [])
      (Schema.admitsFields (.object (Schema.toEntries properties)) entries = true) := by
  induction entries with
  | nil => exact .of_iff (by simp [Schema.admitsFields])
  | cons entry entries ih =>
      rw [List.forall_mem_cons, checkParam_eq, Schema.admitsFields, Bool.and_eq_true]
      refine Refines.both ?_ ih
      refine refines_checkAt hproperties ?_ fun t s hs ht => refines_check hg entry.2 _ hs ht
      intro hacyclic slot t _ ht
      exact expanding_of_resolveSlot hg hacyclic ht

/-- What the validator accepts the schema admits, and conversely if no struct is recursive. -/
theorem refines_validate (hg : r.graph.WellFormed) (hspec : r.specSchema = .ok s)
    (entries : List (String × Document)) :
    Refines r.Acyclic (r.validate (.object entries) = .ok ())
      (Schema.admitsKeys s.toDocument (.object entries) = true) := by
  obtain ⟨properties, rfl, hproperties⟩ := specSchema_eq_ok hg hspec
  rw [validate_eq_ok_iff, ← Schema.admitsKeys_sorted, Document.sorted_object,
    Schema.admitsKeys_object_entries]
  exact refines_checkParams hg hproperties _

end

end Resolver

namespace ValuesFile

/-- The validator and the compiled schema agree on the keys of values: the schema admits all that
is valid, and if no struct occurs in itself, all that it admits is valid. -/
theorem validation_agrees_with_schema {g : TypeGraph} (hg : g.Built)
    (hdefined : (Resolver.ofGraph g).undefinedTypes = []) (unit declarations : String)
    (entries : List (String × Document)) :
    ∃ spec, (Resolver.ofGraph g).specSchema = .ok spec ∧
      SchemaCompiler.native unit declarations (.ofGraph g) = .ok (.wrap spec) ∧
      ((Resolver.ofGraph g).validate (.object entries) = .ok () →
        Schema.admitsKeys spec.toDocument (.object entries) = true) ∧
      ((∀ key, ¬ TransGen (Resolver.ofGraph g).Contains key key) →
        Schema.admitsKeys spec.toDocument (.object entries) = true →
          (Resolver.ofGraph g).validate (.object entries) = .ok ()) := by
  have hr : (Resolver.ofGraph g).Complete := ⟨hg.wellFormed, hdefined⟩
  obtain ⟨spec, hspec, hnative⟩ := hr.exists_native unit declarations
  have hagree := Resolver.refines_validate hr.wellFormed hspec entries
  exact ⟨spec, hspec, hnative, hagree.forward, hagree.backward⟩

/-- A struct with one field, and a value for it. -/
def sizedFile : String :=
  "## @field \x7bint\x7d Size.x\n## @param \x7bSize\x7d size\nsize:\n  x: 1\n"

def sizedValues : List (String × Document) := [("size", .object [("x", .number (.int 1))])]

/-- The same value under a name that the struct does not declare. -/
def misnamedValues : List (String × Document) := [("size", .object [("y", .number (.int 1))])]

theorem sizedFile_validate :
    ((ofText "values.yaml" sizedFile).toOption.map fun f =>
      ((f.resolver.validate (.object sizedValues)).toOption,
        (f.resolver.validate (.object misnamedValues)).toOption,
        f.resolver.graph.fields.all fun x => (f.resolver.successors x.owner).isEmpty)) =
      some (some (), none, true) := by
  have hchars : sizedFile.toList = _ := String.toList_ofList
  simp only [ofText, Document.ofText, hchars]
  decide +kernel

/-- Its schema admits the one and not the other. -/
theorem admitsKeys_sizedValues :
    ∃ g spec, g.Built ∧ (Resolver.ofGraph g).undefinedTypes = [] ∧
      (∀ key, ¬ TransGen (Resolver.ofGraph g).Contains key key) ∧
      SchemaCompiler.native "values.yaml" "" (.ofGraph g) = .ok (.wrap spec) ∧
        Schema.admitsKeys spec.toDocument (.object sizedValues) = true ∧
          Schema.admitsKeys spec.toDocument (.object misnamedValues) = false := by
  obtain ⟨f, hf, hvalidate⟩ := map_toOption_eq_some_iff.mp sizedFile_validate
  obtain ⟨g, hg, hresolver, hdefined⟩ := exists_built_of_ofText hf
  rw [hresolver] at hvalidate hdefined
  simp only [Prod.mk.injEq] at hvalidate
  obtain ⟨hvalid, hinvalid, hflat⟩ := hvalidate
  rw [toOption_eq_some_iff] at hvalid
  have hacyclic : (Resolver.ofGraph g).Acyclic := Resolver.acyclic_of_successors_eq_nil fun x hx =>
    List.isEmpty_iff.mp (List.all_eq_true.mp hflat x hx)
  obtain ⟨spec, hspec, hnative, hadmits, -⟩ :=
    validation_agrees_with_schema hg hdefined "values.yaml" "" sizedValues
  obtain ⟨spec', hspec', -, -, haccepts⟩ :=
    validation_agrees_with_schema hg hdefined "values.yaml" "" misnamedValues
  rw [hspec] at hspec'
  cases hspec'
  refine ⟨g, spec, hg, hdefined, hacyclic, hnative, hadmits hvalid, ?_⟩
  rw [Bool.eq_false_iff]
  intro hadmitted
  rw [haccepts hacyclic hadmitted] at hinvalid
  cases hinvalid

end ValuesFile

end AnnotatedValues
