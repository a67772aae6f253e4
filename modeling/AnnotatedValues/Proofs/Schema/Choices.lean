import AnnotatedValues.Proofs.Schema.Enumerated

/-!
# Choices of members in the schema

A member may be restricted to choices, whatever its type.  The schema allows
their values at the node of the member, next to the type that lies behind all
its pointers; but a choice is read as a value of the type behind one pointer
only, and of no array or map.  Over a primitive type the node is therefore
contradictory exactly if there are two pointers or more, unless choices are
strings anyway, or an array or map.
-/

namespace AnnotatedValues

open Fallible

/-! ## Values of types -/

namespace Primitive

/-- The JSON type of the values. -/
def jsonType : Primitive → ScalarType
  | .string => .string
  | .bool => .boolean
  | .int | .int32 | .int64 => .integer
  | .float32 | .float64 => .number

/-- Whether a document is a value of the type. -/
def holds : Primitive → Document → Bool
  | .string, .string _ => true
  | .bool, .bool _ => true
  | .int, .number (.int _) | .int64, .number (.int _) => true
  | .int32, .number (.int n) => -Int.ofNat (Nat.pow 2 31) ≤ n && n < Int.ofNat (Nat.pow 2 31)
  | .float32, .number _ | .float64, .number _ => true
  | _, _ => false

/-- Whether a text is written as a value of the type. -/
def isLiteral (text : String) : Primitive → Bool
  | .string => true
  | .bool => text == "true" || text == "false"
  | .int | .int64 => (Resolver.readInt64? text.toList).isSome
  | .int32 => (Resolver.readInt64? text.toList).any fun n =>
    -Int.ofNat (Nat.pow 2 31) ≤ n && n < Int.ofNat (Nat.pow 2 31)
  | .float32 | .float64 => (Decimal.readBinary64? text.toList).isSome

/-- A literal is read as a value. -/
theorem holds_enumValue {p : Primitive} {text : String} (h : p.isLiteral text = true) :
    p.holds (Resolver.enumValue text p) = true := by
  cases p with
  | string => rfl
  | bool =>
      rw [isLiteral, Bool.or_eq_true, beq_iff_eq, beq_iff_eq] at h
      rcases h with rfl | rfl <;> rfl
  | int | int64 =>
      obtain ⟨n, hn⟩ := Option.isSome_iff_exists.mp h
      simp [Resolver.enumValue, isInteger, hn, holds]
  | int32 =>
      obtain ⟨n, hn, hrange⟩ := (Option.any_eq_true _ _).mp h
      simp only [Resolver.enumValue, isInteger, hn]
      exact hrange
  | float32 | float64 =>
      obtain ⟨x, hx⟩ := Option.isSome_iff_exists.mp h
      simp [Resolver.enumValue, isInteger, isFloat, hx, holds]

end Primitive

/-- The values of types that are built from pointers, arrays and maps over a primitive type. -/
def Resolved.HasValue : Resolved → Document → Prop
  | .primitive p, value => p.holds value = true
  | .pointer inner, value => value = .null ∨ inner.HasValue value
  | .array inner, value => ∃ items, value = .array items ∧ ∀ item ∈ items, inner.HasValue item
  | .map inner, value => ∃ entries, value = .object entries ∧ ∀ e ∈ entries, inner.HasValue e.2
  | .format _, _ | .semantic _, _ | .enum _, _ | .struct _, _ => False

namespace Schema

/-! ## What nodes say of values -/

/-- Whether a document is of a JSON type; integers are the numbers without a point. -/
def isOfType (type : String) : Document → Bool
  | .null => type == "null"
  | .bool _ => type == "boolean"
  | .number (.int _) => type == "integer" || type == "number"
  | .number (.float _) => type == "number"
  | .string _ => type == "string"
  | .array _ => type == "array"
  | .object _ => type == "object"

/-- The node, if it has both a type and allowed values, allows only values of the type. -/
def Consistent (node : Document) : Prop :=
  ∀ type values, node.get? "type" = some (.string type) →
    node.get? "enum" = some (.array values) → ∀ value ∈ values, isOfType type value = true

/-- The nodes of a schema document. -/
inductive IsNode (root : Document) : Document → Prop where
  | root : IsNode root root
  | items {node sub : Document} (hnode : IsNode root node) (hsub : node.get? "items" = some sub) :
      IsNode root sub
  | values {node sub : Document} (hnode : IsNode root node)
      (hsub : node.get? "additionalProperties" = some sub) : IsNode root sub
  | property {node properties sub : Document} {name : String} (hnode : IsNode root node)
      (hproperties : node.get? "properties" = some properties)
      (hsub : properties.get? name = some sub) : IsNode root sub
  | alternative {node sub : Document} {alternatives : List Document} (hnode : IsNode root node)
      (halternatives : node.get? "anyOf" = some (.array alternatives))
      (hsub : sub ∈ alternatives) : IsNode root sub

/-- A value is of the type of the node and one of the values that it allows, and the parts of the
value satisfy the nodes for the parts. -/
inductive Satisfies : (node value : Document) → Prop where
  | intro {node value : Document}
      (type : ∀ type, node.get? "type" = some (.string type) → isOfType type value = true)
      (enum : ∀ values, node.get? "enum" = some (.array values) → value ∈ values)
      (items : ∀ schema items, node.get? "items" = some schema → value = .array items →
        ∀ item ∈ items, Satisfies schema item)
      (values : ∀ schema entries, node.get? "additionalProperties" = some schema →
        value = .object entries → ∀ e ∈ entries, Satisfies schema e.2) : Satisfies node value

/-- The keywords that lead to other nodes. -/
def partKeywords : List String := ["items", "additionalProperties", "properties", "anyOf"]

/-- A node without them is the only one. -/
theorem IsNode.eq_root {root node : Document} (h : IsNode root node)
    (hparts : ∀ key ∈ partKeywords, root.get? key = none) : node = root := by
  induction h with
  | root => rfl
  | items _ hsub ih =>
      rw [ih, hparts "items" (by decide)] at hsub
      cases hsub
  | values _ hsub ih =>
      rw [ih, hparts "additionalProperties" (by decide)] at hsub
      cases hsub
  | property _ hproperties _ ih =>
      rw [ih, hparts "properties" (by decide)] at hproperties
      cases hproperties
  | alternative _ halternatives _ ih =>
      rw [ih, hparts "anyOf" (by decide)] at halternatives
      cases halternatives

theorem not_mem_noteKeywords : ∀ key ∈ partKeywords, key ∉ noteKeywords := by decide

theorem get?_part_scalar (notes : Notes) (type : ScalarType) (format? : Option String) :
    ∀ key ∈ partKeywords, (scalar notes type format?).toDocument.get? key = none := by
  intro key hkey
  rw [toDocument_scalar, get?_keywords _ _ _ (not_mem_noteKeywords key hkey)]
  simp only [partKeywords, List.mem_cons, List.not_mem_nil, or_false] at hkey
  rcases hkey with rfl | rfl | rfl | rfl <;> cases format? <;> rfl

end Schema

/-! ## Choices as values -/

namespace Resolved

/-- The JSON type of the node for a type that is built over a primitive type. -/
def nodeType (t : Resolved) : String :=
  match t.pointee with
  | .primitive p => p.jsonType.name
  | .array _ => "array"
  | _ => "object"

theorem leaf_pointee (t : Resolved) : t.pointee.leaf = t.leaf := by
  induction t with
  | pointer inner ih => exact ih
  | _ => rfl

theorem pointee_of_stripPointer {t : Resolved} {p : Primitive}
    (h : t.stripPointer = .primitive p) : t.pointee = .primitive p := by
  cases t with
  | pointer inner =>
      cases (h : inner = .primitive p)
      rfl
  | _ => exact h

/-- Choices are read as values of the primitive type, or are strings anyway. -/
def ReadsChoices (t : Resolved) (p : Primitive) : Prop :=
  t.stripPointer = .primitive p ∨ t.pointee = .primitive .string

variable {t : Resolved} {p : Primitive}

theorem ReadsChoices.pointee (h : t.ReadsChoices p) (hleaf : t.leaf = .primitive p) :
    t.pointee = .primitive p := by
  rcases h with hstrip | hstring
  · exact pointee_of_stripPointer hstrip
  · rw [← leaf_pointee, hstring] at hleaf
    cases hleaf
    exact hstring

/-- A value behind the pointers is one of the type. -/
theorem hasValue_of_pointee (h : t.pointee = .primitive p) {value : Document}
    (hvalue : p.holds value = true) : t.HasValue value := by
  induction t with
  | pointer inner ih => exact Or.inr (ih h)
  | primitive q =>
      cases h
      exact hvalue
  | _ => cases h

end Resolved

namespace Resolver

variable {r : Resolver} {t : Resolved} {p : Primitive} {choice : String}

theorem choiceValue_of_stripPointer (h : t.stripPointer = .primitive p) (choice : String) :
    choiceValue choice t = enumValue choice p := by
  rw [choiceValue, h]

/-- Behind a second pointer, and in arrays and maps, a choice stays text. -/
theorem choiceValue_eq_string (hleaf : t.leaf = .primitive p) (h : t.stripPointer ≠ .primitive p)
    (choice : String) : choiceValue choice t = .string choice := by
  rw [← Resolved.leaf_stripPointer] at hleaf
  rw [choiceValue]
  cases hstrip : t.stripPointer with
  | primitive q =>
      rw [hstrip] at hleaf h
      exact absurd hleaf h
  | enum ref =>
      rw [hstrip] at hleaf
      cases hleaf
  | _ => rfl

/-- A literal of the type is read as a value of it, where choices are read. -/
theorem holds_choiceValue (hreads : t.ReadsChoices p) (hleaf : t.leaf = .primitive p)
    (hliteral : p.isLiteral choice = true) : p.holds (choiceValue choice t) = true := by
  by_cases hstrip : t.stripPointer = .primitive p
  · rw [choiceValue_of_stripPointer hstrip]
    exact Primitive.holds_enumValue hliteral
  · have hpointee := hreads.pointee hleaf
    rw [hreads.resolve_left hstrip] at hpointee
    cases hpointee
    rw [choiceValue_eq_string hleaf hstrip]
    rfl

theorem isOfType_of_holds {value : Document} (h : p.holds value = true) :
    Schema.isOfType p.jsonType.name value = true := by
  cases value with
  | number n => cases p <;> cases n <;> first | rfl | cases h
  | _ => cases p <;> first | rfl | cases h

/-- A choice is of the type of the node only where choices are read. -/
theorem readsChoices_of_isOfType (hleaf : t.leaf = .primitive p)
    (h : Schema.isOfType t.nodeType (choiceValue choice t) = true) : t.ReadsChoices p := by
  by_cases hstrip : t.stripPointer = .primitive p
  · exact Or.inl hstrip
  · rw [choiceValue_eq_string hleaf hstrip] at h
    refine Or.inr ?_
    change (t.nodeType == "string") = true at h
    unfold Resolved.nodeType at h
    split at h
    · rename_i q hpointee
      cases q with
      | string => exact hpointee
      | bool | int | int32 | int64 | float32 | float64 => cases h
    · cases h
    · cases h

/-! ## The node of a member -/

theorem get?_type_primitiveSchema (values : List Document) (p : Primitive) :
    (primitiveSchema values p).toDocument.get? "type" = some (.string p.jsonType.name) := by
  cases p <;> exact Schema.get?_keywords _ _ _ (by decide)

theorem get?_part_primitiveSchema (values : List Document) (p : Primitive) :
    ∀ key ∈ Schema.partKeywords, (primitiveSchema values p).toDocument.get? key = none := by
  cases p <;> exact Schema.get?_part_scalar _ _ _

/-- Over a primitive type the schema does not depend on structs, and says nothing but what the type
is; behind pointers it has no parts. -/
theorem exists_typeSchema_of_leaf (hleaf : t.leaf = .primitive p) :
    ∃ s, (∀ struct, typeSchema struct t = .ok s) ∧
      s.toDocument.get? "type" = some (.string t.nodeType) ∧
      (t.pointee = .primitive p → s = primitiveSchema [] p) := by
  induction t with
  | primitive q =>
      cases hleaf
      exact ⟨_, fun _ => rfl, get?_type_primitiveSchema [] p, fun _ => rfl⟩
  | pointer inner ih => exact ih hleaf
  | array inner ih =>
      obtain ⟨items, hitems, -⟩ := ih hleaf
      refine ⟨.array .none items, fun struct => map_eq_ok_iff.mpr ⟨items, hitems struct, rfl⟩, ?_,
        nofun⟩
      exact Schema.get?_keywords _ _ _ (by decide)
  | map inner ih =>
      obtain ⟨values, hvalues, -⟩ := ih hleaf
      refine ⟨.map .none values, fun struct => map_eq_ok_iff.mpr ⟨values, hvalues struct, rfl⟩, ?_,
        nofun⟩
      exact Schema.get?_keywords _ _ _ (by decide)
  | format _ | semantic _ | enum _ | struct _ => cases hleaf

/-- The node of a member with choices has the type behind its pointers and allows the values of the
choices. -/
theorem exists_memberSchema_choices {slot : Slot} (ht : r.resolveSlot slot = .ok t)
    (hleaf : t.leaf = .primitive p) {m : Member} (hm : r.graph.member? slot = some m)
    (hchoices : m.choices ≠ []) :
    ∃ s, (∀ struct, r.memberSchema struct slot = .ok s) ∧
      s.toDocument.get? "type" = some (.string t.nodeType) ∧
      s.toDocument.get? "enum" = some (.array (m.choices.map fun c => choiceValue c t)) ∧
      (t.pointee = .primitive p →
        ∀ node, Schema.IsNode s.toDocument node → node = s.toDocument) := by
  obtain ⟨s, hs, htype, hprimitive⟩ := exists_typeSchema_of_leaf hleaf
  refine ⟨s.withNotes (memberNotes m t), fun struct => ?_, ?_, ?_, ?_⟩
  · refine bind_eq_ok_iff.mpr ⟨t, ht, bind_eq_ok_iff.mpr ⟨s, hs struct, ?_⟩⟩
    rw [hm]
    rfl
  · rw [Schema.get?_withNotes _ _ _ (by decide)]
    exact htype
  · have hvalues : (s.withNotes (memberNotes m t)).notes.values =
        m.choices.map fun c => choiceValue c t := by
      rw [Schema.notes_withNotes]
      exact if_neg (by simpa using hchoices)
    rw [Schema.get?_enum_toDocument, hvalues, if_neg (by simpa using hchoices)]
  · intro hpointee node hnode
    refine hnode.eq_root fun key hkey => ?_
    rw [Schema.get?_withNotes _ _ _ (Schema.not_mem_noteKeywords key hkey), hprimitive hpointee]
    exact get?_part_primitiveSchema [] p key hkey

section

variable {s : Schema} {choices : List String}

/-- All nodes are consistent exactly if choices are read. -/
theorem consistent_iff (hleaf : t.leaf = .primitive p) (hchoices : choices ≠ [])
    (hliteral : ∀ choice ∈ choices, p.isLiteral choice = true)
    (htype : s.toDocument.get? "type" = some (.string t.nodeType))
    (henum : s.toDocument.get? "enum" = some (.array (choices.map fun c => choiceValue c t)))
    (hroot : t.pointee = .primitive p →
      ∀ node, Schema.IsNode s.toDocument node → node = s.toDocument) :
    (∀ node, Schema.IsNode s.toDocument node → Schema.Consistent node) ↔ t.ReadsChoices p := by
  constructor
  · intro h
    obtain ⟨choice, hchoice⟩ := List.exists_mem_of_ne_nil _ hchoices
    have hvalue := h _ .root _ _ htype henum _ (List.mem_map_of_mem hchoice)
    exact readsChoices_of_isOfType hleaf hvalue
  · intro hreads node hnode type values htype' henum' value hvalue
    have hpointee := hreads.pointee hleaf
    rw [hroot hpointee node hnode] at htype' henum'
    cases htype'.symm.trans htype
    cases henum'.symm.trans henum
    obtain ⟨choice, hchoice, rfl⟩ := List.mem_map.mp hvalue
    rw [Resolved.nodeType, hpointee]
    exact isOfType_of_holds (holds_choiceValue hreads hleaf (hliteral choice hchoice))

/-- Some value of the type satisfies the schema exactly if choices are read. -/
theorem satisfiable_iff (hleaf : t.leaf = .primitive p) (hchoices : choices ≠ [])
    (hliteral : ∀ choice ∈ choices, p.isLiteral choice = true)
    (htype : s.toDocument.get? "type" = some (.string t.nodeType))
    (henum : s.toDocument.get? "enum" = some (.array (choices.map fun c => choiceValue c t))) :
    (∃ value, t.HasValue value ∧ Schema.Satisfies s.toDocument value) ↔ t.ReadsChoices p := by
  constructor
  · rintro ⟨value, -, hsatisfies⟩
    cases hsatisfies with
    | intro type enum =>
        obtain ⟨choice, -, rfl⟩ := List.mem_map.mp (enum _ henum)
        exact readsChoices_of_isOfType hleaf (type _ htype)
  · intro hreads
    obtain ⟨choice, hchoice⟩ := List.exists_mem_of_ne_nil _ hchoices
    have hholds := holds_choiceValue hreads hleaf (hliteral choice hchoice)
    have hpointee := hreads.pointee hleaf
    refine ⟨choiceValue choice t, Resolved.hasValue_of_pointee hpointee hholds, ?_, ?_, ?_, ?_⟩
    · intro type htype'
      cases htype'.symm.trans htype
      rw [Resolved.nodeType, hpointee]
      exact isOfType_of_holds hholds
    · intro values henum'
      cases henum'.symm.trans henum
      exact List.mem_map_of_mem hchoice
    · intro schema items _ hitems
      rw [hitems] at hholds
      cases p <;> cases hholds
    · intro schema entries _ hentries
      rw [hentries] at hholds
      cases p <;> cases hholds

end

/-- Wherever a struct is expanded, the schema of a field is its property. -/
theorem lookup_properties_structSchema {fuel : Nat} {stack : List String} {ref : StructRef}
    {name : String} {s schema : Schema}
    (hs : ∀ struct, r.memberSchema struct (.field ref.key name) = .ok s)
    (hfield : r.graph.HasMember (.field ref.key name))
    (h : r.structSchema fuel stack ref = .ok schema) :
    schema = .freeForm .none ∨ schema.properties.lookup name = some s := by
  rcases structSchema_cases h with ⟨-, hcut⟩ | ⟨below, properties, -, rfl, hproperties⟩
  · exact Or.inl hcut
  · have hslot : r.graph.slotOf? (some ref.key) name = some (.field ref.key name) :=
      TypeGraph.slotOf?_some_eq_some_iff.mpr ⟨rfl, hfield⟩
    obtain ⟨s', hs'⟩ := Option.isSome_iff_exists.mp (hproperties.isSome_lookup hslot)
    obtain ⟨slot, hslot', hmember⟩ := hproperties.of_lookup hs'
    cases hslot.symm.trans hslot'
    cases (hs _).symm.trans hmember
    exact Or.inr hs'

end Resolver

/-! ## Choices in a values file -/

namespace ValuesFile

variable {source text : String} {f : ValuesFile} {t : Resolved} {p : Primitive}

/-- A parameter or field over a primitive type that is restricted to literals of it has a schema,
which is its property in the schema of the parameters and wherever its struct is expanded.  No node
of it contradicts its type, and some value of the type satisfies it, exactly if there is at most
one pointer and no array or map, or pointers alone before a string. -/
theorem choices_satisfiable_iff (h : ofText source text = .ok f) {slot : Slot}
    (ht : f.resolver.resolveSlot slot = .ok t) (hleaf : t.leaf = .primitive p) {m : Member}
    (hm : f.resolver.graph.member? slot = some m) (hchoices : m.choices ≠ [])
    (hliteral : ∀ choice ∈ m.choices, p.isLiteral choice = true) (declarations : String) :
    ∃ s : Schema,
      (∀ name key, slot = .node key → f.resolver.graph.param? name = some key →
        ∃ definition, SchemaCompiler.native f.source declarations f.resolver = .ok definition ∧
          definition.property? name = some s.toDocument) ∧
      (∀ ref name fuel stack schema, slot = .field ref.key name →
        f.resolver.structSchema fuel stack ref = .ok schema →
          schema = .freeForm .none ∨ schema.properties.lookup name = some s) ∧
      ((∀ node, Schema.IsNode s.toDocument node → Schema.Consistent node) ↔
        t.stripPointer = .primitive p ∨ t.pointee = .primitive .string) ∧
      ((∃ value, t.HasValue value ∧ Schema.Satisfies s.toDocument value) ↔
        t.stripPointer = .primitive p ∨ t.pointee = .primitive .string) := by
  have hr := complete_of_ofText h
  obtain ⟨s, hs, htype, henum, hroot⟩ :=
    Resolver.exists_memberSchema_choices ht hleaf hm hchoices
  refine ⟨s, ?_, ?_, Resolver.consistent_iff hleaf hchoices hliteral htype henum hroot,
    Resolver.satisfiable_iff hleaf hchoices hliteral htype henum⟩
  · rintro name key rfl hkey
    exact hr.exists_native_property hkey (hs _) f.source declarations
  · rintro ref name fuel stack schema rfl hschema
    obtain ⟨field, hfield, -⟩ := Option.map_eq_some_iff.mp hm
    have hknown : f.resolver.graph.HasMember (.field ref.key name) :=
      Option.isSome_iff_exists.mpr ⟨field, hfield⟩
    exact Resolver.lookup_properties_structSchema hs hknown hschema

/-- A field behind a pointer, with choices. -/
def pointerChoices : String :=
  "## @param \x7bbox\x7d b\n## @field \x7b*int enum:\"1,2\"\x7d box.size\n"

theorem pointerChoices_read :
    (ofText "values.yaml" pointerChoices).toOption.bind (fun f =>
      (f.resolver.resolveSlot (.field "box" "size")).toOption.bind fun t =>
        (f.resolver.structSchema 1 [] ⟨"box", "Box"⟩).toOption.map fun schema =>
          (t, (f.resolver.graph.member? (.field "box" "size")).map (·.choices),
            schema.properties.map Prod.fst)) =
      some (.pointer (.primitive .int), some ["1", "2"], ["size"]) := by
  decide +kernel

/-- One pointer is looked through. -/
theorem satisfiable_pointerChoices :
    ∃ f schema s, ofText "values.yaml" pointerChoices = .ok f ∧
      f.resolver.structSchema 1 [] ⟨"box", "Box"⟩ = .ok schema ∧
      schema.properties.lookup "size" = some s ∧
      (∀ node, Schema.IsNode s.toDocument node → Schema.Consistent node) ∧
      ∃ value, (Resolved.pointer (.primitive .int)).HasValue value ∧
        Schema.Satisfies s.toDocument value := by
  obtain ⟨f, hf, hread⟩ := bind_toOption_eq_some_iff.mp pointerChoices_read
  obtain ⟨t, ht, hread⟩ := bind_toOption_eq_some_iff.mp hread
  obtain ⟨schema, hschema, hread⟩ := map_toOption_eq_some_iff.mp hread
  simp only [Prod.mk.injEq] at hread
  obtain ⟨rfl, hmember, hnames⟩ := hread
  obtain ⟨m, hm, hchoices⟩ := Option.map_eq_some_iff.mp hmember
  obtain ⟨s, -, hproperty, hconsistent, hsatisfiable⟩ :=
    choices_satisfiable_iff hf ht rfl hm (by rw [hchoices]; decide) (by rw [hchoices]; decide) ""
  refine ⟨f, schema, s, hf, hschema, ?_, hconsistent.mpr (Or.inl rfl),
    hsatisfiable.mpr (Or.inl rfl)⟩
  rcases hproperty ⟨"box", "Box"⟩ "size" 1 [] schema rfl hschema with rfl | hlookup
  · cases hnames
  · exact hlookup

/-- Two pointers before the type of the choices. -/
def doubleChoices : String := "## @param \x7b**int enum:\"1,2\"\x7d n\n"

theorem doubleChoices_read :
    (ofText "values.yaml" doubleChoices).toOption.bind (fun f =>
      (f.resolver.resolveSlot (.node "n")).toOption.map fun t =>
        (f.resolver.graph.param? "n", t, (f.resolver.graph.member? (.node "n")).map (·.choices))) =
      some (some "n", .pointer (.pointer (.primitive .int)), some ["1", "2"]) := by
  decide +kernel

theorem doubleChoices_property :
    (ofText "values.yaml" doubleChoices).toOption.bind (fun f =>
      (SchemaCompiler.native f.source "" f.resolver).toOption.map fun definition =>
        (definition.property? "n").map fun property => ["type", "enum"].map property.get?) =
      some (some [some (.string "integer"), some (.array [.string "1", .string "2"])]) := by
  decide +kernel

/-- The choices are literals of the type, and strings in the schema of integers. -/
theorem not_satisfiable_doubleChoices :
    ∃ f t m definition property, ofText "values.yaml" doubleChoices = .ok f ∧
      f.resolver.graph.param? "n" = some "n" ∧ f.resolver.resolveSlot (.node "n") = .ok t ∧
      t.leaf = .primitive .int ∧ f.resolver.graph.member? (.node "n") = some m ∧
      m.choices ≠ [] ∧ (∀ choice ∈ m.choices, Primitive.int.isLiteral choice = true) ∧
      SchemaCompiler.native f.source "" f.resolver = .ok definition ∧
      definition.property? "n" = some property ∧ ¬ Schema.Consistent property ∧
      ∀ value, ¬ Schema.Satisfies property value := by
  obtain ⟨f, hf, hread⟩ := bind_toOption_eq_some_iff.mp doubleChoices_read
  obtain ⟨t, ht, hread⟩ := map_toOption_eq_some_iff.mp hread
  simp only [Prod.mk.injEq] at hread
  obtain ⟨hkey, rfl, hmember⟩ := hread
  obtain ⟨m, hm, hchoices⟩ := Option.map_eq_some_iff.mp hmember
  obtain ⟨f', hf', hcompiled⟩ := bind_toOption_eq_some_iff.mp doubleChoices_property
  cases hf.symm.trans hf'
  obtain ⟨definition, hdefinition, hnode⟩ := map_toOption_eq_some_iff.mp hcompiled
  obtain ⟨property, hproperty, hkeywords⟩ := Option.map_eq_some_iff.mp hnode
  obtain ⟨htype, henum⟩ := List.cons.inj hkeywords
  replace henum := List.singleton_inj.mp henum
  have hstring : ∀ value ∈ [Document.string "1", .string "2"],
      Schema.isOfType "integer" value = false := by decide
  refine ⟨f, _, m, definition, property, hf, hkey, ht, rfl, hm, by rw [hchoices]; decide,
    by rw [hchoices]; decide, hdefinition, hproperty, ?_, ?_⟩
  · intro hconsistent
    have hvalue := hconsistent _ _ htype henum (.string "1") (by decide)
    cases hvalue
  · intro value hsatisfies
    cases hsatisfies with
    | intro type enum =>
        have hvalue := type _ htype
        rw [hstring value (enum _ henum)] at hvalue
        cases hvalue

end ValuesFile

end AnnotatedValues
