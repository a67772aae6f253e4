import AnnotatedValues.Proofs.Graph.Redeclaration
import AnnotatedValues.Proofs.Reading
import AnnotatedValues.Proofs.Resolved.Members
import AnnotatedValues.Proofs.Schema.Default
import AnnotatedValues.Proofs.Yaml.Number
import AnnotatedValues.Proofs.Yaml.Word

/-!
# Defaults of enumerations in the schema

A parameter of an enumeration is restricted to the values of the base type that
the tokens denote.  Its default is read by another rule, as YAML unless the base
is the string type, and is therefore one of these values exactly if YAML reads
some token as its base type does.  For a word this is a matter of spelling:
zeros before digits, integers in place of numbers with a point, and words that
YAML takes for something else.
-/

namespace AnnotatedValues

open Decimal Fallible

/-! ## Allowed values of nodes -/

namespace Schema

/-- The keyword for the allowed values holds those of the notes. -/
theorem get?_enum_toDocument (s : Schema) :
    s.toDocument.get? "enum" =
      if s.notes.values.isEmpty then none else some (.array s.notes.values) := by
  rw [get?_toDocument_notes s _ (by decide), keywords]
  cases s.notes.description? <;> cases s.notes.values.isEmpty <;> cases s.notes.default? <;> rfl

/-- Whether a node has a default, and this is one of the values that the node allows. -/
def AdmitsDefault (node : Document) : Prop :=
  ∃ values value, node.get? "enum" = some (.array values) ∧ node.get? "default" = some value ∧
    value ∈ values

theorem admitsDefault_iff (s : Schema) :
    AdmitsDefault s.toDocument ↔ ∃ value ∈ s.notes.default?, value ∈ s.notes.values := by
  unfold AdmitsDefault
  rw [get?_enum_toDocument, get?_default_toDocument]
  cases hvalues : s.notes.values with
  | nil => simp
  | cons first rest => simp

end Schema

/-! ## Tokens as defaults -/

theorem Resolved.leaf_stripPointer (t : Resolved) : t.stripPointer.leaf = t.leaf := by
  cases t <;> rfl

namespace Resolver

variable {r : Resolver} {t : Resolved} {ref : EnumRef} {d : String}

/-- Whether YAML reads nothing in a word, so that it stands for itself. -/
def staysText (word : List Char) : Bool :=
  Yaml.Plain.ofText word = .text || Yaml.Plain.ofText word = .wide

/-- Whether a word, by its spelling, is the same value for the base type and as a default. -/
def readsAlike (word : List Char) : (base : Primitive) → Bool
  | .string => true
  | .bool => word == "true".toList || word == "false".toList || staysText word
  | .int | .int32 | .int64 =>
    match readInt64? word with
    | some _ => !Yaml.Plain.isZeroPadded word
    | none => staysText word
  | .float32 | .float64 =>
    match readBinary64? word with
    | some _ => (Yaml.Plain.int? word).isNone && !Yaml.Plain.isZeroPadded word
    | none => staysText word

/-- The default that a plain scalar gives; one that denotes no document is kept as text. -/
def plainDefault? (word : List Char) : Yaml.Plain → Option Document
  | .null | .special => none
  | .bool b => some (.bool b)
  | .int n => some (.number (.int n))
  | .float x => some (.number (.float x))
  | .text | .wide => some (.string (String.ofList word))

theorem defaultDocument?_of_word (ht : t.stripPointer = .enum ref) (hbase : ref.base ≠ .string)
    (hword : Yaml.IsWord d.toList) :
    defaultDocument? d t = plainDefault? d.toList (Yaml.Plain.ofText d.toList) := by
  have hproper : t.stripPointer ≠ .semantic .emptyObject := by
    rw [ht]
    exact nofun
  have hstring : t.isStringLike = false := by
    rw [Resolved.isStringLike, ht]
    exact decide_eq_false hbase
  rw [defaultDocument?, DefaultValue.ofText?, if_neg hproper, hstring,
    if_neg Bool.false_ne_true, Yaml.readLiteral?_word hword]
  cases Yaml.Plain.ofText d.toList <;> simp [Yaml.Plain.document?, plainDefault?]

theorem plainDefault?_eq_string_iff :
    plainDefault? d.toList (Yaml.Plain.ofText d.toList) = some (.string d) ↔
      staysText d.toList = true := by
  unfold staysText
  cases Yaml.Plain.ofText d.toList <;> simp [plainDefault?]

theorem plainDefault?_eq_int_iff {word : List Char} {plain : Yaml.Plain} {n : Int} :
    plainDefault? word plain = some (.number (.int n)) ↔ plain = .int n := by
  cases plain <;> simp [plainDefault?]

theorem plainDefault?_eq_float_iff {word : List Char} {plain : Yaml.Plain} {x : Binary64} :
    plainDefault? word plain = some (.number (.float x)) ↔ plain = .float x := by
  cases plain <;> simp [plainDefault?]

/-- A word is the same integer, or the same text, exactly if it is spelled so. -/
theorem plainDefault?_eq_enumValue_int_iff (d : String) :
    plainDefault? d.toList (Yaml.Plain.ofText d.toList) = some (enumValue d .int) ↔
      readsAlike d.toList .int = true := by
  have hvalue : enumValue d .int =
      ((readInt64? d.toList).map fun n => .number (.int n)).getD (.string d) := rfl
  rw [hvalue, readsAlike]
  cases hread : readInt64? d.toList with
  | none => exact plainDefault?_eq_string_iff
  | some n =>
      rw [Option.map_some, Option.getD_some, plainDefault?_eq_int_iff,
        Yaml.Plain.ofText_of_readInt64? hread]
      cases Yaml.Plain.isZeroPadded d.toList <;> simp

theorem plainDefault?_eq_enumValue_float_iff (d : String) :
    plainDefault? d.toList (Yaml.Plain.ofText d.toList) = some (enumValue d .float64) ↔
      readsAlike d.toList .float64 = true := by
  have hvalue : enumValue d .float64 =
      ((readBinary64? d.toList).map fun x => .number (.float x)).getD (.string d) := rfl
  rw [hvalue, readsAlike]
  cases hread : readBinary64? d.toList with
  | none => exact plainDefault?_eq_string_iff
  | some x =>
      rw [Option.map_some, Option.getD_some, plainDefault?_eq_float_iff,
        Yaml.Plain.ofText_eq_float_iff hread]
      simp

theorem plainDefault?_eq_enumValue_bool_iff (d : String) :
    plainDefault? d.toList (Yaml.Plain.ofText d.toList) = some (enumValue d .bool) ↔
      readsAlike d.toList .bool = true := by
  by_cases htrue : d = "true"
  · subst htrue
    decide
  by_cases hfalse : d = "false"
  · subst hfalse
    decide
  have hvalue : enumValue d .bool = .string d := by
    simp [enumValue, Primitive.isInteger, Primitive.isFloat, htrue, hfalse]
  have hwords : (d.toList == "true".toList || d.toList == "false".toList) = false := by
    rw [Bool.or_eq_false_iff, beq_eq_false_iff_ne, beq_eq_false_iff_ne, Ne, Ne, String.toList_inj,
      String.toList_inj]
    exact ⟨htrue, hfalse⟩
  rw [hvalue, readsAlike, hwords, Bool.false_or]
  exact plainDefault?_eq_string_iff

/-- A word is its own value as a default exactly if it is spelled so. -/
theorem defaultDocument?_of_isWord (ht : t.stripPointer = .enum ref) (hbase : ref.base ≠ .string)
    (hword : Yaml.IsWord d.toList) :
    defaultDocument? d t = some (enumValue d ref.base) ↔ readsAlike d.toList ref.base = true := by
  rw [defaultDocument?_of_word ht hbase hword]
  cases hprimitive : ref.base with
  | string => exact absurd hprimitive hbase
  | bool => exact plainDefault?_eq_enumValue_bool_iff d
  | int | int32 | int64 => exact plainDefault?_eq_enumValue_int_iff d
  | float32 | float64 => exact plainDefault?_eq_enumValue_float_iff d

/-- A token for a string stands for itself, as nothing is taken off it. -/
theorem defaultDocument?_of_token (ht : t.stripPointer = .enum ref) (hbase : ref.base = .string)
    (htoken : ∀ c ∈ d.toList, Text.isBlank c = false)
    (hquote : ∀ c ∈ d.toList.head?, c ≠ '"' ∧ c ≠ '\'') :
    defaultDocument? d t = some (enumValue d ref.base) := by
  have hstring : t.isStringLike = true := by
    rw [Resolved.isStringLike, ht]
    exact decide_eq_true hbase
  have htrim : Text.trim d.toList = d.toList :=
    Text.trim_eq_self_iff.mpr
      ⟨fun c hc => htoken c (List.mem_of_mem_head? hc),
        fun c hc => htoken c (List.mem_of_getLast? hc)⟩
  have hbetween : ∀ quote, quote = '"' ∨ quote = '\'' →
      Annotation.isBetween quote d.toList = false := by
    intro quote hmark
    rw [Bool.eq_false_iff]
    intro hbetween
    unfold Annotation.isBetween at hbetween
    simp only [Bool.and_eq_true, beq_iff_eq] at hbetween
    obtain ⟨hdouble, hsingle⟩ := hquote quote hbetween.1.2
    exact hmark.elim hdouble hsingle
  have hself : unquoted d = d := by
    rw [unquoted_eq_self_iff, Annotation.unquote_eq_self_iff]
    exact ⟨htrim, hbetween _ (Or.inl rfl), hbetween _ (Or.inr rfl)⟩
  rw [defaultDocument?_of_isStringLike hstring, hself, hbase]
  rfl

/-- The texts that a member of an enumeration is restricted to. -/
def allowedTexts (m : Member) (ref : EnumRef) : List String :=
  if m.choices.isEmpty then ref.values else m.choices

/-- A default in an annotation is there in the graph. -/
theorem default?_of_annotated? {m : Member} (hd : m.annotated? = some d) :
    m.default? = some ⟨d, .annotated⟩ := by
  obtain ⟨text, htext, rfl⟩ := Option.map_eq_some_iff.mp hd
  obtain ⟨hdefault, hsource⟩ := Option.filter_eq_some_iff.mp htext
  rw [hdefault]
  cases text
  cases of_decide_eq_true hsource
  rfl

theorem notes_primitiveSchema (values : List Document) (p : Primitive) :
    (primitiveSchema values p).notes = ⟨none, values, none⟩ := by
  cases p <;> rfl

/-- The schema of a parameter of an enumeration allows the values of its texts, and has the default
that the annotation denotes. -/
theorem exists_paramSchema_enum {key : String} (ht : r.resolveSlot (.node key) = .ok t)
    (henum : t.stripPointer = .enum ref) {m : Member}
    (hm : r.graph.member? (.node key) = some m) (hd : m.annotated? = some d) :
    ∃ s, r.paramSchema key = .ok s ∧ s.notes.default? = defaultDocument? d t ∧
      s.notes.values = (allowedTexts m ref).map fun text => enumValue text ref.base := by
  have hschema : typeSchema (r.structSchema (r.graph.nodes.length + 1) []) t =
      .ok (primitiveSchema (ref.values.map fun v => enumValue v ref.base) ref.base) := by
    rw [← typeSchema_stripPointer, henum]
    rfl
  have hchoice : ∀ text, choiceValue text t = enumValue text ref.base := by
    intro text
    rw [choiceValue, henum]
  refine ⟨_, bind_eq_ok_iff.mpr ⟨t, ht, bind_eq_ok_iff.mpr ⟨_, hschema, rfl⟩⟩, ?_, ?_⟩
  · rw [Schema.notes_withNotes, memberNotes, hm, Option.getD_some, notes_primitiveSchema,
      default?_of_annotated? hd, Option.bind_some, Option.or_none]
  · rw [Schema.notes_withNotes, memberNotes, hm, Option.getD_some, notes_primitiveSchema,
      allowedTexts]
    cases m.choices.isEmpty with
    | true => rfl
    | false => exact List.map_congr_left fun text _ => hchoice text

end Resolver

/-! ## Tokens of enumerations -/

/-- Samples leave enumerations as they are. -/
theorem TypeGraph.enumRef?_populate (g : TypeGraph) (values : Document) :
    (Resolver.ofGraph (g.populate values)).enumRef? = (Resolver.ofGraph g).enumRef? := by
  have hbare : ∀ g : TypeGraph,
      (Resolver.ofGraph g.bare).enumRef? = (Resolver.ofGraph g).enumRef? := fun g =>
    enumRef?_mapMembers Member.bare g
  rw [← hbare (g.populate values), bare_populate, hbare]

theorem Resolver.values_of_enumRef? {r : Resolver} {key : String} {ref : EnumRef}
    (h : r.enumRef? key = some ref) :
    ∃ node decl, r.graph.node? key = some node ∧ node.enum? = some decl ∧
      ref.values = decl.values := by
  unfold enumRef? at h
  split at h
  · rename_i decl hdecl
    obtain ⟨node, hnode, henum⟩ := Option.bind_eq_some_iff.mp hdecl
    split at h
    · cases h
    · cases h
      exact ⟨node, decl, hnode, henum, rfl⟩
  · cases h

namespace ValuesFile

variable {source text : String} {f : ValuesFile} {t : Resolved} {ref : EnumRef}

/-- The values of an enumeration that a slot has as its type are tokens of the file. -/
theorem isBlank_of_mem_values (h : ofText source text = .ok f) {slot : Slot}
    (ht : f.resolver.resolveSlot slot = .ok t) (henum : t.leaf = .enum ref) :
    ∀ value ∈ ref.values, ∀ c ∈ value.toList, Text.isBlank c = false := by
  have hr := complete_of_ofText h
  obtain ⟨g, hg, hresolver, -⟩ := exists_build_of_ofText h
  have href : ∃ key, f.resolver.enumRef? key = some ref := by
    rcases Resolver.resolveSlot_cases ht with ⟨type, -, htype⟩ | ⟨_, -, rfl⟩
    · have hname := Resolver.resolveName_of_resolve hr.wellFormed htype
      rw [henum, Resolver.resolveName_eq_enum_iff hr.wellFormed] at hname
      exact ⟨_, hname.2.2⟩
    · cases henum
  obtain ⟨key, href⟩ := href
  rw [hresolver, TypeGraph.enumRef?_populate] at href
  obtain ⟨node, decl, hnode, hdecl, hvalues⟩ := Resolver.values_of_enumRef? href
  have hlast := (TypeGraph.type_of_node? hg hnode).2.1
  rw [hdecl] at hlast
  obtain ⟨row, hrow, hsame⟩ := Option.map_eq_some_iff.mp hlast.symm
  obtain ⟨hmem, hfor⟩ := List.mem_filter.mp (List.mem_of_getLast? hrow)
  have hkind : row.kind = .enum := beq_iff_eq.mp (Bool.and_eq_true_iff.mp hfor).1
  rw [hvalues, ← hsame]
  exact Annotation.Scan.tokenized_of_mem_ofText hmem hkind

/-- A parameter of an enumeration whose annotated default is one of the tokens has a default that
the schema allows exactly if the default denotes the value of some text that the parameter is
restricted to.  The token denotes its own value if the base is the string type, and if it is a word
for YAML exactly by its spelling. -/
theorem admitsDefault_token_iff (h : ofText source text = .ok f) {name key : String}
    (hkey : f.resolver.graph.param? name = some key)
    (ht : f.resolver.resolveSlot (.node key) = .ok t) (henum : t.stripPointer = .enum ref)
    {m : Member} (hm : f.resolver.graph.member? (.node key) = some m) {d : String}
    (hd : m.annotated? = some d) (htoken : d ∈ ref.values)
    (hquote : ∀ c ∈ d.toList.head?, c ≠ '"' ∧ c ≠ '\'') (declarations : String) :
    ∃ definition property,
      SchemaCompiler.native f.source declarations f.resolver = .ok definition ∧
      definition.property? name = some property ∧
      (Schema.AdmitsDefault property ↔ ∃ text ∈ Resolver.allowedTexts m ref,
        Resolver.defaultDocument? d t = some (Resolver.enumValue text ref.base)) ∧
      (ref.base = .string ∨ Yaml.IsWord d.toList →
        (Resolver.defaultDocument? d t = some (Resolver.enumValue d ref.base) ↔
          Resolver.readsAlike d.toList ref.base = true)) ∧
      (m.choices = [] → ref.base = .string ∨ Yaml.IsWord d.toList →
        Resolver.readsAlike d.toList ref.base = true → Schema.AdmitsDefault property) := by
  have hr := complete_of_ofText h
  have hleaf : t.leaf = .enum ref := by
    rw [← Resolved.leaf_stripPointer, henum]
    rfl
  have hblank := isBlank_of_mem_values h ht hleaf d htoken
  obtain ⟨s, hs, hdefault, hvalues⟩ := Resolver.exists_paramSchema_enum ht henum hm hd
  obtain ⟨definition, hdefinition, hproperty⟩ :=
    hr.exists_native_property hkey hs f.source declarations
  have hadmits : Schema.AdmitsDefault s.toDocument ↔ ∃ text ∈ Resolver.allowedTexts m ref,
      Resolver.defaultDocument? d t = some (Resolver.enumValue text ref.base) := by
    simp only [Schema.admitsDefault_iff, hdefault, hvalues, Option.mem_def, List.mem_map]
    constructor
    · rintro ⟨_, hvalue, text, htext, rfl⟩
      exact ⟨text, htext, hvalue⟩
    · rintro ⟨text, htext, hvalue⟩
      exact ⟨_, hvalue, text, htext, rfl⟩
  have hown : ref.base = .string ∨ Yaml.IsWord d.toList →
      (Resolver.defaultDocument? d t = some (Resolver.enumValue d ref.base) ↔
        Resolver.readsAlike d.toList ref.base = true) := by
    intro hread
    by_cases hbase : ref.base = .string
    · refine iff_of_true (Resolver.defaultDocument?_of_token henum hbase hblank hquote) ?_
      rw [hbase]
      rfl
    · exact Resolver.defaultDocument?_of_isWord henum hbase (hread.resolve_left hbase)
  refine ⟨definition, _, hdefinition, hproperty, hadmits, hown, fun hplain hread halike => ?_⟩
  refine hadmits.mpr ⟨d, ?_, (hown hread).mpr halike⟩
  rw [Resolver.allowedTexts, hplain]
  exact htoken

/-- An enumeration of integers, one of them with a sign. -/
def signedLevel : String :=
  "## @enum \x7bint\x7d Level\n## @value 1\n## @value +2\n## @param \x7b*Level\x7d level=+2\n"

theorem signedLevel_read :
    (ofText "values.yaml" signedLevel).toOption.bind (fun f =>
      (f.resolver.resolveSlot (.node "level")).toOption.map fun t =>
        (f.resolver.graph.param? "level", t,
          (f.resolver.graph.member? (.node "level")).map fun m => (m.annotated?, m.choices))) =
      some (some "level", .pointer (.enum ⟨"level", "Level", .int, ["1", "+2"]⟩),
        some (some "+2", [])) := by
  decide +kernel

/-- A sign is read by both rules. -/
theorem admitsDefault_signedLevel :
    ∃ f definition property, ofText "values.yaml" signedLevel = .ok f ∧
      SchemaCompiler.native f.source "" f.resolver = .ok definition ∧
        definition.property? "level" = some property ∧ Schema.AdmitsDefault property := by
  obtain ⟨f, hf, hread⟩ := bind_toOption_eq_some_iff.mp signedLevel_read
  obtain ⟨t, ht, hread⟩ := map_toOption_eq_some_iff.mp hread
  simp only [Prod.mk.injEq] at hread
  obtain ⟨hkey, rfl, hmember⟩ := hread
  obtain ⟨m, hm, hd⟩ := Option.map_eq_some_iff.mp hmember
  obtain ⟨hannotated, hchoices⟩ := Prod.mk.inj hd
  have hfirst : ∀ c ∈ "+2".toList.head?, c ≠ '"' ∧ c ≠ '\'' := by
    rintro c ⟨⟩
    decide
  have hword : Yaml.IsWord "+2".toList :=
    ⟨List.all_eq_true.mp (by decide), by decide, by decide, by decide⟩
  obtain ⟨definition, property, hdefinition, hproperty, -, -, hadmits⟩ :=
    admitsDefault_token_iff hf hkey ht rfl hm hannotated (by decide) hfirst ""
  exact ⟨f, definition, property, hf, hdefinition, hproperty,
    hadmits hchoices (Or.inr hword) (by decide)⟩

/-- An integer with zeros before it. -/
def paddedLevel : String :=
  "## @enum \x7bint\x7d Level\n## @value 007\n## @param \x7bLevel\x7d level=007\n"

theorem paddedLevel_read :
    (ofText "values.yaml" paddedLevel).toOption.bind (fun f =>
      (f.resolver.resolveSlot (.node "level")).toOption.map fun t =>
        (f.resolver.graph.param? "level", t,
          (f.resolver.graph.member? (.node "level")).map fun m => (m.annotated?, m.choices))) =
      some (some "level", .enum ⟨"level", "Level", .int, ["007"]⟩, some (some "007", [])) := by
  decide +kernel

theorem paddedLevel_property :
    (ofText "values.yaml" paddedLevel).toOption.bind (fun f =>
      (SchemaCompiler.native f.source "" f.resolver).toOption.map fun definition =>
        (definition.property? "level").map fun property => ["enum", "default"].map property.get?) =
      some (some [some (.array [.number (.int 7)]), some (.string "007")]) := by
  decide +kernel

/-- The value is the integer, the default is text. -/
theorem not_admitsDefault_paddedLevel :
    ∃ f t ref m definition property, ofText "values.yaml" paddedLevel = .ok f ∧
      f.resolver.graph.param? "level" = some "level" ∧
      f.resolver.resolveSlot (.node "level") = .ok t ∧ t.stripPointer = .enum ref ∧
      f.resolver.graph.member? (.node "level") = some m ∧ m.annotated? = some "007" ∧
      m.choices = [] ∧ "007" ∈ ref.values ∧
      SchemaCompiler.native f.source "" f.resolver = .ok definition ∧
      definition.property? "level" = some property ∧ ¬ Schema.AdmitsDefault property := by
  obtain ⟨f, hf, hread⟩ := bind_toOption_eq_some_iff.mp paddedLevel_read
  obtain ⟨t, ht, hread⟩ := map_toOption_eq_some_iff.mp hread
  simp only [Prod.mk.injEq] at hread
  obtain ⟨hkey, rfl, hmember⟩ := hread
  obtain ⟨m, hm, hd⟩ := Option.map_eq_some_iff.mp hmember
  obtain ⟨hannotated, hchoices⟩ := Prod.mk.inj hd
  obtain ⟨f', hf', hcompiled⟩ := bind_toOption_eq_some_iff.mp paddedLevel_property
  cases hf.symm.trans hf'
  obtain ⟨definition, hdefinition, hnode⟩ := map_toOption_eq_some_iff.mp hcompiled
  obtain ⟨property, hproperty, hkeywords⟩ := Option.map_eq_some_iff.mp hnode
  obtain ⟨henum, hdefault⟩ := List.cons.inj hkeywords
  refine ⟨f, _, _, m, definition, property, hf, hkey, ht, rfl, hm, hannotated, hchoices, by decide,
    hdefinition, hproperty, ?_⟩
  rintro ⟨values, value, hvalues, hvalue, hmem⟩
  cases hvalues.symm.trans henum
  cases hvalue.symm.trans (List.singleton_inj.mp hdefault)
  exact absurd hmem (by decide)

end ValuesFile

end AnnotatedValues
