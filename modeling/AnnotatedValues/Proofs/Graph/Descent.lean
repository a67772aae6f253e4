import AnnotatedValues.Proofs.Reading

/-!
# Where samples of an object go

Sampling an object enters the fields of one struct at most, and gives each of
them that the object has a value for its sample.  The struct is the one that the
type of the slot resolves to, unless a parameter shares its node with the fields
of another: then these are entered instead.
-/

namespace AnnotatedValues

/-- A node, or a field of one of the structs in `path`. -/
def Slot.Inside (path : List String) : Slot → Prop
  | .node _ => True
  | .field owner _ => owner ∈ path

theorem Slot.Inside.cons {path : List String} {slot : Slot} (h : slot.Inside path)
    (owner : String) : slot.Inside (owner :: path) := by
  cases slot with
  | node key => trivial
  | field key name => exact List.mem_cons_of_mem owner h

/-- A struct that is not on the path has no slot inside. -/
theorem Slot.Inside.ne_field {path : List String} {slot : Slot} (h : slot.Inside path)
    {owner : String} (howner : owner ∉ path) (name : String) : slot ≠ .field owner name := by
  rintro rfl
  exact howner h

namespace TypeGraph

variable {g : TypeGraph} {slot other : Slot} {path : List String}

/-! ## Single samples -/

theorem member?_updateMember (f : Member → Member) :
    (g.updateMember slot f).member? other =
      if other = slot then (g.member? other).map f else g.member? other := by
  cases slot with
  | node key =>
      cases other with
      | node otherKey =>
          simp only [member?, node?_updateMember_node, Slot.node.injEq]
          split
          · cases g.node? otherKey <;> rfl
          · rfl
      | field otherOwner otherName => rfl
  | field owner name =>
      cases other with
      | node otherKey => rfl
      | field otherOwner otherName =>
          simp only [member?, field?_updateMember_field, Slot.field.injEq]
          split
          · cases g.field? otherOwner otherName <;> rfl
          · rfl

theorem member?_setSample_of_ne (hne : other ≠ slot) (text : String) :
    (setSample slot text g).member? other = g.member? other := by
  rw [setSample, member?_updateMember, if_neg hne]

/-- The default of the member at a slot. -/
def default? (g : TypeGraph) (slot : Slot) : Option DefaultText :=
  (g.member? slot).bind (·.default?)

theorem default?_setSample_self {m : Member} (hm : g.member? slot = some m)
    (hdefault : m.default? = none) {text : String} (htext : text.isEmpty = false) :
    (setSample slot text g).default? slot = some ⟨text, .sampled⟩ := by
  rw [default?, setSample, member?_updateMember, if_pos rfl, hm]
  simp [hdefault, htext]

/-- A default that there is stays. -/
theorem default?_setSample_of_eq_some {d : DefaultText} (h : g.default? other = some d)
    (slot : Slot) (text : String) : (setSample slot text g).default? other = some d := by
  obtain ⟨m, hm, hd⟩ := Option.bind_eq_some_iff.mp h
  rw [default?, setSample, member?_updateMember]
  split
  · rw [hm]
    simp [hd]
  · exact h

theorem default?_sampleEntries_of_eq_some {d : DefaultText} (h : g.default? other = some d)
    (path : List String) (owner : Option String) (entries : List (String × Document)) :
    (sampleEntries path owner g entries).default? other = some d :=
  sampleEntries_induction (motive := fun g' => g'.default? other = some d)
    (fun slot text _ h' => default?_setSample_of_eq_some h' slot text) path owner g h entries

/-! ## What sampling leaves alone -/

mutual

/-- Sampling the value of a slot changes neither other nodes nor fields of structs that are being
followed, -/
theorem member?_sampleValue_of_ne (path : List String) (slot : Slot) (g : TypeGraph)
    (hinside : other.Inside path) (hne : other ≠ slot) :
    (d : Document) → (sampleValue path slot g d).member? other = g.member? other
  | .null => rfl
  | .bool _ => member?_setSample_of_ne hne _
  | .number _ => member?_setSample_of_ne hne _
  | .string _ => member?_setSample_of_ne hne _
  | .array _ => member?_setSample_of_ne hne _
  | .object entries => by
      rw [sampleValue, member?_setSample_of_ne hne]
      split
      · rename_i owner _
        split
        · rfl
        · rename_i howner
          rw [List.contains_iff_mem] at howner
          exact member?_sampleEntries_of_ne (owner :: path) owner g (hinside.cons owner)
            (hinside.ne_field howner) entries
      · rfl
termination_by structural d => d

/-- and sampling the entries of an object only those of its own struct. -/
theorem member?_sampleEntries_of_ne (path : List String) (owner : String) (g : TypeGraph)
    (hinside : other.Inside path) (hne : ∀ name, other ≠ .field owner name) :
    (entries : List (String × Document)) →
      (sampleEntries path (some owner) g entries).member? other = g.member? other
  | [] => rfl
  | (key, value) :: entries => by
      rw [sampleEntries, member?_sampleEntries_of_ne path owner _ hinside hne entries]
      split
      · rename_i slot hslot
        obtain ⟨rfl, -⟩ := slotOf?_some_eq_some_iff.mp hslot
        exact member?_sampleValue_of_ne path _ g hinside (hne key) value
      · rfl
termination_by structural entries => entries

end

/-! ## What an object gives the fields of its struct -/

/-- The text that a value gives as a sample. -/
def sampleText : Document → String
  | .null => ""
  | .array items => (Document.array items).yaml
  | .object entries => (Document.object entries).yaml
  | scalar => scalarText scalar

theorem default?_sampleValue (hinside : slot.Inside path) {m : Member}
    (hm : g.member? slot = some m) (hdefault : m.default? = none) {value : Document}
    (htext : (sampleText value).isEmpty = false) :
    (sampleValue path slot g value).default? slot = some ⟨sampleText value, .sampled⟩ := by
  cases value with
  | null => cases htext
  | bool b => exact default?_setSample_self hm hdefault htext
  | number n => exact default?_setSample_self hm hdefault htext
  | string s => exact default?_setSample_self hm hdefault htext
  | array items => exact default?_setSample_self hm hdefault htext
  | object entries =>
      rw [sampleValue]
      refine default?_setSample_self (m := m) ?_ hdefault htext
      split
      · rename_i owner _
        split
        · exact hm
        · rename_i howner
          rw [List.contains_iff_mem] at howner
          rw [member?_sampleEntries_of_ne (owner :: path) owner g (hinside.cons owner)
            (hinside.ne_field howner) entries]
          exact hm
      · exact hm

/-- A slot belongs to one name. -/
theorem slotOf?_injective {owner? : Option String} {name otherName : String}
    (h : g.slotOf? owner? name = some slot) (h' : g.slotOf? owner? otherName = some slot) :
    name = otherName := by
  cases owner? with
  | none =>
      obtain ⟨key, hkey, rfl⟩ := Option.map_eq_some_iff.mp h
      obtain ⟨key', hkey', hsame⟩ := Option.map_eq_some_iff.mp h'
      cases hsame
      exact (nameOf_of_param? hkey).symm.trans (nameOf_of_param? hkey')
  | some owner =>
      obtain ⟨rfl, -⟩ := slotOf?_some_eq_some_iff.mp h
      obtain ⟨hsame, -⟩ := slotOf?_some_eq_some_iff.mp h'
      cases hsame
      rfl

theorem slotOf?_sampleValue (path : List String) (slot : Slot) (g : TypeGraph) (d : Document)
    (owner? : Option String) (name : String) :
    (sampleValue path slot g d).slotOf? owner? name = g.slotOf? owner? name := by
  rw [← slotOf?_bare, bare_sampleValue, slotOf?_bare]

/-- The slot of a name gets the sample of the first entry with this name, unless it has a
default. -/
theorem default?_sampleEntries {owner? : Option String} {name : String}
    (hslot : g.slotOf? owner? name = some slot) (hinside : slot.Inside path)
    {entries : List (String × Document)} {value : Document}
    (hlookup : entries.lookup name = some value) {m : Member}
    (hm : g.member? slot = some m) (hdefault : m.default? = none)
    (htext : (sampleText value).isEmpty = false) :
    (sampleEntries path owner? g entries).default? slot = some ⟨sampleText value, .sampled⟩ := by
  induction entries generalizing g with
  | nil => cases hlookup
  | cons entry entries ih =>
      rw [sampleEntries]
      rw [List.lookup_cons] at hlookup
      split at hlookup
      · rename_i hkey
        rw [beq_iff_eq] at hkey
        subst hkey
        cases hlookup
        rw [hslot]
        exact default?_sampleEntries_of_eq_some
          (default?_sampleValue hinside hm hdefault htext) _ _ _
      · rename_i hkey
        cases hother : g.slotOf? owner? entry.1 with
        | none => exact ih hslot hlookup hm
        | some other =>
            have hne : slot ≠ other := by
              rintro rfl
              rw [slotOf?_injective hslot hother, beq_self_eq_true] at hkey
              cases hkey
            refine ih ?_ hlookup ?_
            · rw [slotOf?_sampleValue]
              exact hslot
            · rw [member?_sampleValue_of_ne path other g hinside hne]
              exact hm

/-! ## The struct that is entered -/

/-- The struct whose fields sampling an object at the slot enters. -/
def descent? (g : TypeGraph) (path : List String) (slot : Slot) : Option String :=
  (g.structAt? slot).filter fun owner => !path.contains owner

theorem sampleValue_object (path : List String) (slot : Slot) (g : TypeGraph)
    (entries : List (String × Document)) :
    sampleValue path slot g (.object entries) =
      setSample slot (Document.object entries).yaml
        (match g.descent? path slot with
          | some owner => sampleEntries (owner :: path) (some owner) g entries
          | none => g) := by
  rw [sampleValue, descent?]
  cases g.structAt? slot with
  | none => rfl
  | some owner =>
      rw [Option.filter_some]
      by_cases howner : owner ∈ path
      · simp [howner]
      · simp [howner]

/-- The struct of a parameter that shares its node with the fields of another struct. -/
def shadow? (g : TypeGraph) (slot : Slot) (key : String) : Option String :=
  match slot with
  | .node own => if g.hasFields own && own != key then some own else none
  | .field _ _ => none

/-- The struct that a member's expression points to is the one that it resolves to. -/
theorem structOf?_of_resolve (hg : g.WellFormed) {m : Member} {type : TypeExpr}
    (htype : m.type? = some type) {t : Resolved}
    (ht : (Resolver.ofGraph g).resolve type = .ok t) {ref : StructRef}
    (href : t.pointee = .struct ref) : g.structOf? m = some ref.key := by
  have hpointee := Resolver.resolve_pointee (r := .ofGraph g) hg ht
  rw [href] at hpointee
  rw [structOf?, htype, Option.map_some]
  cases hexpr : type.pointee with
  | pointer inner =>
      rw [hexpr] at hpointee
      obtain ⟨_, -, h⟩ := Fallible.map_eq_ok_iff.mp hpointee
      cases h
  | array inner =>
      rw [hexpr] at hpointee
      obtain ⟨_, -, h⟩ := Fallible.map_eq_ok_iff.mp hpointee
      cases h
  | map inner =>
      rw [hexpr] at hpointee
      obtain ⟨_, -, h⟩ := Fallible.map_eq_ok_iff.mp hpointee
      cases h
  | named name =>
      rw [hexpr] at hpointee
      obtain ⟨hname, hfields, -, rfl⟩ :=
        (Resolver.resolveName_eq_struct_iff (r := .ofGraph g) hg).mp hpointee
      obtain ⟨_, field, hfield⟩ := hasFields_iff.mp hfields
      have hlookup : g.lookup? name = some (keyOf name) := if_pos (hg.owner_known hfield)
      have hfields' : g.hasFields (keyOf name) = true := hfields
      simp [hname, hlookup, hfields', Option.filter_some, Resolver.structRef]

/-- An object is looked up in the struct that its slot resolves to, if no other is in its way. -/
theorem structAt?_eq (hg : g.WellFormed) (hslot : g.HasMember slot) {t : Resolved}
    (ht : (Resolver.ofGraph g).resolveSlot slot = .ok t) {ref : StructRef}
    (href : t.pointee = .struct ref) :
    g.structAt? slot = some ((g.shadow? slot ref.key).getD ref.key) := by
  obtain ⟨m, type, hm, htype⟩ := hg.exists_type hslot
  rw [Resolver.resolveSlot_eq (r := .ofGraph g) hm htype] at ht
  have hof := structOf?_of_resolve hg htype ht href
  cases slot with
  | field owner name =>
      rw [structAt?, hm]
      exact hof
  | node own =>
      rw [structAt?, shadow?, hm, Option.bind_some, hof]
      cases g.hasFields own with
      | false => rfl
      | true =>
          by_cases hown : own = ref.key
          · simp [hown]
          · simp [hown]

theorem shadow?_eq_some_iff {key own : String} :
    g.shadow? slot key = some own ↔ slot = .node own ∧ g.hasFields own = true ∧ own ≠ key := by
  cases slot with
  | field owner name => simp [shadow?]
  | node other =>
      simp only [shadow?, Option.ite_none_right_eq_some, Bool.and_eq_true, bne_iff_ne,
        Option.some.injEq, Slot.node.injEq]
      constructor
      · rintro ⟨⟨hfields, hne⟩, rfl⟩
        exact ⟨rfl, hfields, hne⟩
      · rintro ⟨rfl, hfields, hne⟩
        exact ⟨⟨hfields, hne⟩, rfl⟩

/-- Sampling an object enters the fields of the struct that its slot points to, if and only if the
slot is not a node with the fields of another struct.  It then gives each field without a default
that the object has a value for the sample of this value; otherwise it enters that other struct. -/
theorem Built.descent?_eq_some_iff (hg : g.Built) (hslot : g.HasMember slot) {t : Resolved}
    (ht : (Resolver.ofGraph g).resolveSlot slot = .ok t) {ref : StructRef}
    (href : t.pointee = .struct ref) (hpath : ref.key ∉ path) (entries : List (String × Document)) :
    sampleValue path slot g (.object entries) =
        setSample slot (Document.object entries).yaml
          (match g.descent? path slot with
            | some owner => sampleEntries (owner :: path) (some owner) g entries
            | none => g) ∧
      (g.descent? path slot = some ref.key ↔
        ¬ ∃ own, slot = .node own ∧ g.hasFields own = true ∧ own ≠ ref.key) ∧
      (∀ own, slot = .node own → g.hasFields own = true → own ≠ ref.key → own ∉ path →
        g.descent? path slot = some own) ∧
      (g.descent? path slot = some ref.key → ∀ name value m, entries.lookup name = some value →
        g.member? (.field ref.key name) = some m → m.default? = none →
          (sampleText value).isEmpty = false →
            (sampleValue path slot g (.object entries)).default? (.field ref.key name) =
              some ⟨sampleText value, .sampled⟩) := by
  have hat := structAt?_eq hg.wellFormed hslot ht href
  refine ⟨sampleValue_object path slot g entries, ?_, ?_, ?_⟩
  · simp only [← shadow?_eq_some_iff]
    rw [descent?, hat]
    cases hshadow : g.shadow? slot ref.key with
    | none => simp [hpath]
    | some own =>
        have hne := (shadow?_eq_some_iff.mp hshadow).2.2
        simp [Option.filter_some, hne]
  · intro own hown hfields hne hnew
    rw [descent?, hat, shadow?_eq_some_iff.mpr ⟨hown, hfields, hne⟩]
    simp [hnew]
  · intro hdescent name value m hlookup hm hdefault htext
    have hname : g.slotOf? (some ref.key) name = some (.field ref.key name) := by
      obtain ⟨field, hfield, -⟩ := Option.map_eq_some_iff.mp hm
      exact slotOf?_some_eq_some_iff.mpr ⟨rfl, Option.isSome_iff_exists.mpr ⟨field, hfield⟩⟩
    have hinside : (Slot.field ref.key name).Inside (ref.key :: path) := List.mem_cons_self
    rw [sampleValue_object, hdescent]
    exact default?_setSample_of_eq_some
      (default?_sampleEntries hname hinside hlookup hm hdefault htext) _ _

/-- A parameter of a struct type under a name of its own. -/
def pointedStruct : String :=
  "## @field \x7bint\x7d Size.x\n## @param \x7b*Size\x7d main\n"

def pointedValue : List (String × Document) := [("x", .number (.int 1))]

theorem pointedStruct_graph :
    ((ValuesFile.ofText "values.yaml" pointedStruct).toOption.map fun f =>
      ((f.resolver.resolveSlot (.node "main")).toOption.bind fun t =>
          t.pointee.struct?.map (·.key),
        f.resolver.graph.descent? [] (.node "main"),
        f.resolver.graph.default? (.field "size" "x"),
        f.resolver.graph.params.contains "main" &&
          (f.resolver.graph.member? (.field "size" "x")).isSome)) =
      some (some "size", some "size", none, true) := by
  decide +kernel

/-- Its field gets the sample. -/
theorem default?_pointedStruct :
    ∃ g, g.Built ∧
      (sampleValue [] (.node "main") g (.object pointedValue)).default? (.field "size" "x") =
        some ⟨"1", .sampled⟩ := by
  obtain ⟨f, hf, hgraph⟩ := Fallible.map_toOption_eq_some_iff.mp pointedStruct_graph
  obtain ⟨g, hg, hresolver, -⟩ := ValuesFile.exists_built_of_ofText hf
  rw [hresolver] at hgraph
  simp only [Prod.mk.injEq] at hgraph
  obtain ⟨htype, hdescent, hdefault, hknown⟩ := hgraph
  obtain ⟨t, ht, hstruct⟩ := Fallible.bind_toOption_eq_some_iff.mp htype
  obtain ⟨ref, href, hkey⟩ := Option.map_eq_some_iff.mp hstruct
  rw [Bool.and_eq_true, List.contains_iff_mem] at hknown
  have hslot : g.HasMember (.node "main") := hknown.1
  obtain ⟨m, hm⟩ := Option.isSome_iff_exists.mp hknown.2
  have hplain : m.default? = none := by
    rw [default?, hm] at hdefault
    exact hdefault
  obtain ⟨-, -, -, hsamples⟩ := hg.descent?_eq_some_iff hslot ht
    (Resolved.eq_struct_of_struct? href) List.not_mem_nil pointedValue
  rw [hkey] at hsamples
  exact ⟨g, hg, hsamples hdescent "x" (.number (.int 1)) m rfl hm hplain (by decide)⟩

/-- A parameter under the name of another struct. -/
def shadowingStruct : String :=
  "## @typedef \x7bstruct\x7d foo\n## @field \x7bint\x7d foo.a\n" ++
    "## @param \x7bbar\x7d foo\n## @field \x7bint\x7d bar.b\nfoo:\n  b: 5\n"

def shadowedValue : List (String × Document) := [("b", .number (.int 5))]

theorem shadowingStruct_graph :
    ((ValuesFile.ofText "values.yaml" shadowingStruct).toOption.map fun f =>
      ((f.resolver.resolveSlot (.node "foo")).toOption.bind fun t =>
          t.pointee.struct?.map (·.key),
        f.resolver.graph.descent? [] (.node "foo"),
        (sampleValue [] (.node "foo") f.resolver.graph (.object shadowedValue)).default?
          (.field "bar" "b"),
        f.resolver.graph.params.contains "foo" && (f.resolver.graph.field? "bar" "b").isSome)) =
      some (some "bar", some "foo", none, true) := by
  have hchars : shadowingStruct.toList = _ :=
    Text.toList_append_eq String.toList_ofList String.toList_ofList
  simp only [ValuesFile.ofText, Document.ofText, hchars]
  decide +kernel

/-- An object for it enters the fields of that struct, and no field of its type gets a sample. -/
theorem descent?_shadowingStruct :
    ∃ g t ref, g.Built ∧ g.HasMember (.node "foo") ∧
      (Resolver.ofGraph g).resolveSlot (.node "foo") = .ok t ∧ t.pointee = .struct ref ∧
        ref.key = "bar" ∧ g.HasMember (.field "bar" "b") ∧
          g.descent? [] (.node "foo") = some "foo" ∧
            (sampleValue [] (.node "foo") g (.object shadowedValue)).default?
              (.field "bar" "b") = none := by
  obtain ⟨f, hf, hgraph⟩ := Fallible.map_toOption_eq_some_iff.mp shadowingStruct_graph
  obtain ⟨g, hg, hresolver, -⟩ := ValuesFile.exists_built_of_ofText hf
  rw [hresolver] at hgraph
  simp only [Prod.mk.injEq] at hgraph
  obtain ⟨htype, hdescent, hdefault, hknown⟩ := hgraph
  obtain ⟨t, ht, hstruct⟩ := Fallible.bind_toOption_eq_some_iff.mp htype
  obtain ⟨ref, href, hkey⟩ := Option.map_eq_some_iff.mp hstruct
  rw [Bool.and_eq_true, List.contains_iff_mem] at hknown
  exact ⟨g, t, ref, hg, hknown.1, ht, Resolved.eq_struct_of_struct? href, hkey, hknown.2,
    hdescent, hdefault⟩

end TypeGraph

end AnnotatedValues
