import AnnotatedValues.Proofs.Graph.Descent
import AnnotatedValues.Proofs.Schema.Agreement

/-!
# Samples as defaults in the schema

The schema gives the default of a parameter as the value that its text denotes.
The text of a type that is written as a string denotes itself without blanks and
without one pair of quotes around it, also if it was taken from the values and
never quoted.  A string is therefore its own default unless it begins or ends
with a blank or stands between equal quotes.
-/

namespace AnnotatedValues

open Fallible

/-! ## Texts that denote themselves -/

namespace Annotation

open Text

theorem length_between {quote : Char} {cs : List Char} (h : isBetween quote cs = true) :
    cs.tail.dropLast.length < cs.length := by
  unfold isBetween at h
  simp only [Bool.and_eq_true, decide_eq_true_eq] at h
  rw [List.length_dropLast, List.length_tail]
  omega

/-- Only blanks and quotes around a text are lost. -/
theorem unquote_eq_self_iff (cs : List Char) :
    unquote cs = cs ↔
      trim cs = cs ∧ isBetween '"' cs = false ∧ isBetween '\'' cs = false := by
  unfold unquote
  dsimp only
  cases hbetween : isBetween '"' (trim cs) || isBetween '\'' (trim cs) with
  | true =>
      have hshorter : (trim cs).tail.dropLast.length < cs.length := by
        rcases (Bool.or_eq_true _ _).mp hbetween with hquote | hquote
        · exact Nat.lt_of_lt_of_le (length_between hquote) (length_trim_le cs)
        · exact Nat.lt_of_lt_of_le (length_between hquote) (length_trim_le cs)
      constructor
      · intro h
        rw [if_pos rfl] at h
        rw [h] at hshorter
        exact absurd hshorter (Nat.lt_irrefl _)
      · rintro ⟨htrim, hdouble, hsingle⟩
        rw [htrim, hdouble, hsingle] at hbetween
        cases hbetween
  | false =>
      rw [if_neg Bool.false_ne_true]
      constructor
      · intro h
        rw [h, Bool.or_eq_false_iff] at hbetween
        exact ⟨h, hbetween⟩
      · exact fun h => h.1

end Annotation

theorem unquoted_eq_self_iff (text : String) :
    unquoted text = text ↔ Annotation.unquote text.toList = text.toList := by
  rw [unquoted, ← String.toList_inj, String.toList_ofList]

/-! ## Defaults of schemas -/

namespace Schema

/-- The keyword for the default holds that of the notes. -/
theorem get?_default_toDocument (s : Schema) :
    s.toDocument.get? "default" = s.notes.default? := by
  rw [get?_toDocument_notes s _ (by decide), keywords]
  cases s.notes.description? <;> cases s.notes.values.isEmpty <;> cases s.notes.default? <;> rfl

end Schema

namespace ResourceDefinition

/-- The default that the values schema gives a parameter. -/
def default? (d : ResourceDefinition) (name : String) : Option Document :=
  d.valuesSchema?.toOption.bind fun schema =>
    ((schema.get? "properties").bind fun properties => properties.get? name).bind fun property =>
      property.get? "default"

theorem default?_wrap {properties : List (String × Schema)} {name : String} {s : Schema}
    (hs : properties.lookup name = some s) :
    (wrap (.object .none properties)).default? name = s.toDocument.get? "default" := by
  change ((Document.object (Schema.toEntries properties)).get? name).bind
    (fun property => property.get? "default") = _
  rw [Schema.get?_toEntries, hs]
  rfl

/-- The schema document that the values schema gives a parameter. -/
def property? (d : ResourceDefinition) (name : String) : Option Document :=
  d.valuesSchema?.toOption.bind fun schema =>
    (schema.get? "properties").bind fun properties => properties.get? name

theorem default?_eq (d : ResourceDefinition) (name : String) :
    d.default? name = (d.property? name).bind fun property => property.get? "default" := by
  unfold default? property?
  rw [Option.bind_assoc]

theorem property?_wrap {properties : List (String × Schema)} {name : String} {s : Schema}
    (hs : properties.lookup name = some s) :
    (wrap (.object .none properties)).property? name = some s.toDocument := by
  change (Document.object (Schema.toEntries properties)).get? name = _
  rw [Schema.get?_toEntries, hs]
  rfl

end ResourceDefinition

namespace Resolver

variable {r : Resolver} {t : Resolved}

theorem typeSchema_stripPointer (struct : StructRef → Except Unresolved Schema) (t : Resolved) :
    typeSchema struct t.stripPointer = typeSchema struct t := by
  cases t <;> rfl

theorem exists_typeSchema_of_isStringLike (h : t.isStringLike = true)
    (struct : StructRef → Except Unresolved Schema) : ∃ s, typeSchema struct t = .ok s := by
  unfold Resolved.isStringLike at h
  rw [← typeSchema_stripPointer]
  cases ht : t.stripPointer with
  | primitive p => exact ⟨_, rfl⟩
  | format name => exact ⟨_, rfl⟩
  | semantic s => exact ⟨_, rfl⟩
  | enum ref => exact ⟨_, rfl⟩
  | pointer inner | array inner | map inner =>
      rw [ht] at h
      cases h
  | struct ref =>
      rw [ht] at h
      cases h

/-- For a type that is written as a string, a text denotes itself without quotes. -/
theorem defaultDocument?_of_isStringLike (h : t.isStringLike = true) (text : String) :
    defaultDocument? text t = some (.string (unquoted text)) := by
  have hproper : t.stripPointer ≠ .semantic .emptyObject := by
    intro hempty
    rw [Resolved.isStringLike, hempty] at h
    cases h
  rw [defaultDocument?, DefaultValue.ofText?, if_neg hproper, if_pos h]
  rfl

/-- The schema of a parameter that is written as a string and has a default gives this. -/
theorem exists_paramSchema_default {key : String} (ht : r.resolveSlot (.node key) = .ok t)
    (hstring : t.isStringLike = true) {d : DefaultText}
    (hd : r.graph.default? (.node key) = some d) :
    ∃ s, r.paramSchema key = .ok s ∧
      s.toDocument.get? "default" = some (.string (unquoted d.text)) := by
  obtain ⟨m, hm, hmember⟩ := Option.bind_eq_some_iff.mp hd
  obtain ⟨s, hs⟩ := exists_typeSchema_of_isStringLike hstring
    (r.structSchema (r.graph.nodes.length + 1) [])
  refine ⟨_, bind_eq_ok_iff.mpr ⟨t, ht, bind_eq_ok_iff.mpr ⟨s, hs, rfl⟩⟩, ?_⟩
  rw [Schema.get?_default_toDocument, Schema.notes_withNotes, memberNotes, hm, Option.getD_some,
    hmember, Option.bind_some, defaultDocument?_of_isStringLike hstring]
  rfl

/-- The values schema has the schema of a parameter under its name. -/
theorem Complete.exists_native_property (hr : r.Complete) {name key : String}
    (hkey : r.graph.param? name = some key) {s : Schema} (hs : r.paramSchema key = .ok s)
    (source declarations : String) :
    ∃ d, SchemaCompiler.native source declarations r = .ok d ∧
      d.property? name = some s.toDocument := by
  obtain ⟨spec, hspec, hnative⟩ := hr.exists_native source declarations
  obtain ⟨properties, rfl, hproperties⟩ := specSchema_eq_ok hr.wellFormed hspec
  have hslot : r.graph.slotOf? none name = some (.node key) := by
    rw [TypeGraph.slotOf?, hkey]
    rfl
  obtain ⟨s', hs'⟩ := Option.isSome_iff_exists.mp (hproperties.isSome_lookup hslot)
  obtain ⟨slot, hslot', hmember⟩ := hproperties.of_lookup hs'
  cases hslot.symm.trans hslot'
  cases hs.symm.trans hmember
  exact ⟨_, hnative, ResourceDefinition.property?_wrap hs'⟩

end Resolver

/-! ## Samples of parameters -/

namespace TypeGraph

variable {g : TypeGraph} {values : Document} {name key v : String}

/-- A string in the values is the default of its parameter, unless an annotation gives one. -/
theorem default?_populate (hg : g.WellFormed) (hkey : g.param? name = some key)
    (hplain : g.default? (.node key) = none) (hvalue : values.get? name = some (.string v))
    (hv : v ≠ "") : (g.populate values).default? (.node key) = some ⟨v, .sampled⟩ := by
  obtain ⟨m, -, hm, -⟩ := hg.exists_type (hg.hasMember_of_param? hkey)
  have hslot : g.slotOf? none name = some (.node key) := by
    rw [slotOf?, hkey]
    rfl
  have hdefault : m.default? = none := by
    rw [default?, hm] at hplain
    exact hplain
  have hinside : (Slot.node key).Inside [] := trivial
  exact default?_sampleEntries hslot hinside hvalue hm hdefault
    (Bool.eq_false_iff.mpr fun h => hv (String.isEmpty_iff.mp h))

/-- The values schema gives a parameter that is written as a string the string in the values as its
default, without blanks and quotes around it; this is the string itself exactly if it has none. -/
theorem sampled_default_unquoted {rows : List Annotation.Row} (hg : build rows = .ok g)
    (hkey : g.param? name = some key) (hplain : g.default? (.node key) = none)
    (hvalue : values.get? name = some (.string v)) (hv : v ≠ "") {t : Resolved}
    (ht : (Resolver.ofGraph (g.populate values)).resolveSlot (.node key) = .ok t)
    (hstring : t.isStringLike = true)
    (hdefined : (Resolver.ofGraph (g.populate values)).undefinedTypes = [])
    (source declarations : String) :
    ∃ d, SchemaCompiler.native source declarations (.ofGraph (g.populate values)) = .ok d ∧
      d.default? name = some (.string (unquoted v)) ∧
      (unquoted v = v ↔ Text.trim v.toList = v.toList ∧
        Annotation.isBetween '"' v.toList = false ∧
        Annotation.isBetween '\'' v.toList = false) := by
  have hbuilt := Built.rows hg
  have hr : (Resolver.ofGraph (g.populate values)).Complete :=
    ⟨(hbuilt.populate values).wellFormed, hdefined⟩
  obtain ⟨spec, hspec, hnative⟩ := hr.exists_native source declarations
  obtain ⟨properties, rfl, hproperties⟩ := Resolver.specSchema_eq_ok hr.wellFormed hspec
  obtain ⟨s, hs, hdefault⟩ := Resolver.exists_paramSchema_default ht hstring
    (default?_populate hbuilt.wellFormed hkey hplain hvalue hv)
  have hslot : (g.populate values).slotOf? none name = some (.node key) := by
    rw [← slotOf?_bare, bare_populate, slotOf?_bare, slotOf?, hkey]
    rfl
  have hproperty : properties.lookup name = some s := by
    obtain ⟨s', hs'⟩ := Option.isSome_iff_exists.mp (hproperties.isSome_lookup hslot)
    obtain ⟨slot, hslot', hmember⟩ := hproperties.of_lookup hs'
    cases hslot.symm.trans hslot'
    cases hs.symm.trans hmember
    exact hs'
  refine ⟨_, hnative, ?_, ?_⟩
  · rw [ResourceDefinition.default?_wrap hproperty]
    exact hdefault
  · rw [unquoted_eq_self_iff, Annotation.unquote_eq_self_iff]

/-- A parameter that is written as a string. -/
def noteRows : List Annotation.Row :=
  let scan := Annotation.Scan.ofText "## @param \x7b*string\x7d note\n".toList
  scan.rows

/-- A value with blanks and quotes inside, -/
def innerValue : Document := .object [("note", .string "say \"hi\" twice")]

/-- and one with blanks around it. -/
def paddedValue : Document := .object [("note", .string " a ")]

theorem noteRows_graph :
    ((build noteRows).toOption.map fun g =>
      (g.param? "note", g.default? (.node "note"),
        ((Resolver.ofGraph (g.populate innerValue)).resolveSlot (.node "note")).toOption.map
          Resolved.isStringLike,
        (Resolver.ofGraph (g.populate innerValue)).undefinedTypes)) =
      some (some "note", none, some true, []) := by
  decide +kernel

/-- Blanks and quotes inside stay, -/
theorem default?_innerValue :
    ∃ g d, build noteRows = .ok g ∧
      SchemaCompiler.native "values.yaml" "" (.ofGraph (g.populate innerValue)) = .ok d ∧
        d.default? "note" = some (.string "say \"hi\" twice") := by
  obtain ⟨g, hg, hgraph⟩ := map_toOption_eq_some_iff.mp noteRows_graph
  simp only [Prod.mk.injEq] at hgraph
  obtain ⟨hkey, hplain, htype, hdefined⟩ := hgraph
  obtain ⟨t, ht, hstring⟩ := map_toOption_eq_some_iff.mp htype
  have hvalue : innerValue.get? "note" = some (.string "say \"hi\" twice") := rfl
  obtain ⟨d, hd, hdefault, hself⟩ :=
    sampled_default_unquoted hg hkey hplain hvalue (by decide) ht hstring hdefined "values.yaml" ""
  rw [hself.mpr (by decide)] at hdefault
  exact ⟨g, d, hg, hd, hdefault⟩

theorem paddedValue_graph :
    ((build noteRows).toOption.bind fun g =>
      (SchemaCompiler.native "values.yaml" "" (.ofGraph (g.populate paddedValue))).toOption.map
        fun d =>
          (g.param? "note", g.default? (.node "note"),
            ((Resolver.ofGraph (g.populate paddedValue)).resolveSlot (.node "note")).toOption.map
              Resolved.isStringLike,
            d.default? "note")) =
      some (some "note", none, some true, some (.string "a")) := by
  decide +kernel

/-- blanks around it do not. -/
theorem default?_paddedValue :
    ∃ g t d, build noteRows = .ok g ∧ g.param? "note" = some "note" ∧
      g.default? (.node "note") = none ∧ paddedValue.get? "note" = some (.string " a ") ∧
        (Resolver.ofGraph (g.populate paddedValue)).resolveSlot (.node "note") = .ok t ∧
          t.isStringLike = true ∧
            SchemaCompiler.native "values.yaml" "" (.ofGraph (g.populate paddedValue)) = .ok d ∧
              d.default? "note" = some (.string "a") := by
  obtain ⟨g, hg, hcompiled⟩ := bind_toOption_eq_some_iff.mp paddedValue_graph
  obtain ⟨d, hd, hgraph⟩ := map_toOption_eq_some_iff.mp hcompiled
  simp only [Prod.mk.injEq] at hgraph
  obtain ⟨hkey, hplain, htype, hdefault⟩ := hgraph
  obtain ⟨t, ht, hstring⟩ := map_toOption_eq_some_iff.mp htype
  exact ⟨g, t, d, hg, hkey, hplain, rfl, ht, hstring, hd, hdefault⟩

end TypeGraph

end AnnotatedValues
