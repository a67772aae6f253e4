import AnnotatedValues.Proofs.Go.Declared
import AnnotatedValues.Proofs.Graph.Redeclaration
import AnnotatedValues.Proofs.Schema.Agreement

/-!
# Parameters under their last spelling

Rows for parameters whose names differ in letter case only declare one
parameter, which has the spelling of the last of them.  The values schema, the
struct of the parameters and the validator know the parameters by exactly these
spellings.
-/

namespace AnnotatedValues

open Annotation Fallible

/-! ## Last spellings -/

/-- The name in the list, behind which no other stands for the same key. -/
def IsLastSpelling (names : List String) (name : String) : Prop :=
  ∃ before after, names = before ++ name :: after ∧ ∀ other ∈ after, keyOf other ≠ keyOf name

theorem isLastSpelling_iff {names : List String} {name : String} :
    IsLastSpelling names name ↔
      (names.filter fun other => keyOf other == keyOf name).getLast? = some name := by
  constructor
  · rintro ⟨before, after, rfl, hlast⟩
    have hafter : (after.filter fun other => keyOf other == keyOf name) = [] :=
      List.filter_eq_nil_iff.mpr fun other hother heq => hlast other hother (beq_iff_eq.mp heq)
    have hname : (keyOf name == keyOf name) = true := beq_self_eq_true _
    rw [List.filter_append, List.filter_cons, if_pos hname, hafter, List.getLast?_concat]
  · intro h
    obtain ⟨front, hfront⟩ := List.getLast?_eq_some_iff.mp h
    obtain ⟨before, rest, rfl, -, hrest⟩ := List.filter_eq_append_iff.mp hfront
    obtain ⟨skipped, after, rfl, -, -, hafter⟩ := List.filter_eq_cons_iff.mp hrest
    refine ⟨before ++ skipped, after, (List.append_assoc _ _ _).symm, fun other hother heq => ?_⟩
    have hmem : other ∈ after.filter fun other => keyOf other == keyOf name :=
      List.mem_filter.mpr ⟨hother, beq_iff_eq.mpr heq⟩
    rw [hafter] at hmem
    cases hmem

example : IsLastSpelling ["Port", "host", "port"] "port" :=
  isLastSpelling_iff.mpr (by decide +kernel)

/-- Each name is a spelling of the last one for its key. -/
theorem exists_isLastSpelling {names : List String} {name : String} (h : name ∈ names) :
    ∃ last, IsLastSpelling names last ∧ keyOf last = keyOf name := by
  have hmem : name ∈ names.filter fun other => keyOf other == keyOf name :=
    List.mem_filter.mpr ⟨h, beq_self_eq_true _⟩
  obtain ⟨last, hlast⟩ := Option.isSome_iff_exists.mp
    (List.getLast?_isSome.mpr (List.ne_nil_of_mem hmem))
  have hkey : keyOf last = keyOf name :=
    beq_iff_eq.mp (List.mem_filter.mp (List.mem_of_getLast? hlast)).2
  refine ⟨last, isLastSpelling_iff.mpr ?_, hkey⟩
  rw [hkey]
  exact hlast

/-! ## Spellings in the graph -/

namespace TypeGraph

variable {g : TypeGraph} {rows : List Row} {name : String}

/-- A parameter is found under its last spelling and no other. -/
theorem exists_param?_iff (hg : build rows = .ok g) :
    (∃ key, g.param? name = some key) ↔
      IsLastSpelling (rows.filterMap (Row.declaredName? .param)) name := by
  have hspelling : (∃ key, g.param? name = some key) ↔
      ((g.node? (keyOf name)).bind fun node => if node.isParam then some node.name else none) =
        some name := by
    simp only [param?_eq_some_iff, Option.bind_eq_some_iff, Option.ite_none_right_eq_some,
      Option.some.injEq]
    constructor
    · rintro ⟨_, rfl, node, hnode, hparam, hname⟩
      exact ⟨node, hnode, hparam, hname⟩
    · rintro ⟨node, hnode, hparam, hname⟩
      exact ⟨_, rfl, node, hnode, hparam, hname⟩
  have habout : (Saying.about (keyOf name) (sayings g.ownerOf rows)).filterMap Saying.paramName? =
      ((sayings g.ownerOf rows).filterMap Saying.paramName?).filter
        fun other => keyOf other == keyOf name := by
    rw [Saying.about, List.filterMap_filter, List.filter_filterMap]
    refine List.filterMap_congr fun s _ => ?_
    cases s <;> simp [Saying.paramName?, Saying.key, Saying.name, Option.filter]
  rw [hspelling, node?_build hg, Saying.spelling_summary, habout, filterMap_paramName?_sayings hg,
    isLastSpelling_iff]

/-! ## Parameters in their order -/

theorem WellFormed.mem_spellings_iff (hg : g.WellFormed) :
    name ∈ g.sortedParams.map g.nameOf ↔ ∃ key, g.param? name = some key := by
  constructor
  · intro h
    obtain ⟨key, hkey, rfl⟩ := List.mem_map.mp h
    exact ⟨key, hg.param?_nameOf (mem_sortedParams.mp hkey)⟩
  · rintro ⟨key, hkey⟩
    exact List.mem_map.mpr
      ⟨key, mem_sortedParams.mpr (hg.hasMember_of_param? hkey), nameOf_of_param? hkey⟩

/-- No two parameters have one spelling. -/
theorem WellFormed.nodup_spellings (hg : g.WellFormed) : (g.sortedParams.map g.nameOf).Nodup := by
  have hnodup : g.sortedParams.Nodup := (List.mergeSort_perm _ _).nodup_iff.mpr hg.params_nodup
  refine List.Nodup.map_on ?_ hnodup
  intro key hkey other hother hsame
  have hparam := hg.param?_nameOf (mem_sortedParams.mp hkey)
  rw [hsame, hg.param?_nameOf (mem_sortedParams.mp hother)] at hparam
  exact (Option.some.inj hparam).symm

end TypeGraph

namespace Resolver

variable {r : Resolver}

theorem map_fst_properties {s : Schema} (h : r.specSchema = .ok s) :
    s.properties.map Prod.fst = r.graph.sortedParams.map r.graph.nameOf := by
  obtain ⟨properties, hproperties, h⟩ := bind_eq_ok_iff.mp h
  rw [pure_eq_ok_iff] at h
  subst h
  exact Keyed.map_fst_of_mapM hproperties

end Resolver

namespace Go

variable {r : Resolver}

/-- The fields of a struct have the names of their slots as keys, in this order. -/
theorem map_key_fieldDecls {slots : List (String × Slot)} {fields : List FieldDecl}
    (h : fieldDecls r slots = .ok fields) : fields.map (·.key) = slots.map Prod.fst := by
  have hnames := congrArg (List.map Prod.fst) (map_names_fieldDecls h)
  rw [List.map_map, Identifier.map_fst_assignFree, List.map_map] at hnames
  exact hnames

theorem map_key_specDecl {spec : StructDecl} (h : specDecl r = .ok spec) :
    spec.fields.map (·.key) = r.graph.sortedParams.map r.graph.nameOf := by
  obtain ⟨fields, hfields, hspec⟩ := bind_eq_ok_iff.mp h
  rw [pure_eq_ok_iff] at hspec
  subst hspec
  rw [map_key_fieldDecls hfields, List.map_map]
  rfl

end Go

namespace ValuesFile

/-- The names of the parameters that a text declares, row by row. -/
def declaredNames (text : String) : List String :=
  let scan := Annotation.Scan.ofText text.toList
  scan.rows.filterMap (Row.declaredName? .param)

variable {source text : String} {f : ValuesFile}

theorem exists_param?_iff_isLastSpelling (h : ofText source text = .ok f) {name : String} :
    (∃ key, f.resolver.graph.param? name = some key) ↔
      IsLastSpelling (declaredNames text) name := by
  obtain ⟨g, hg, hresolver, -⟩ := exists_build_of_ofText h
  have hparam : f.resolver.graph.param? name = g.param? name := by
    rw [hresolver]
    change (g.populate f.values).param? name = _
    rw [← TypeGraph.param?_bare, TypeGraph.bare_populate, TypeGraph.param?_bare]
  rw [hparam]
  exact TypeGraph.exists_param?_iff hg

/-- The parameters of the values schema, the struct of the parameters and the validator are those
of the rows, under the last of the spellings of each key. -/
theorem parameters_by_last_spelling (h : ofText source text = .ok f)
    (package declarations : String) :
    ∃ d parameters file spec structs,
      SchemaCompiler.native f.source declarations f.resolver = .ok d ∧
      d.parameters? = .ok parameters ∧ (parameters.map Prod.fst).Nodup ∧
      (∀ name, name ∈ parameters.map Prod.fst ↔ IsLastSpelling (declaredNames text) name) ∧
      (∀ name ∈ declaredNames text, ∃ last ∈ parameters.map Prod.fst, keyOf last = keyOf name) ∧
      Go.file f.resolver package = .ok file ∧ file.structs = spec :: structs ∧
      spec.ident = Identifier.rootSpec ∧ spec.fields.map (·.key) = parameters.map Prod.fst ∧
      ∀ values name, Issue.unknownParameter name ∈ f.resolver.issues values ↔
        name ∈ values.sorted.entries.map Prod.fst ∧ ¬ IsLastSpelling (declaredNames text) name := by
  have hr := complete_of_ofText h
  have hg := hr.wellFormed
  obtain ⟨s, hs, hnative⟩ := hr.exists_native f.source declarations
  obtain ⟨file, hfile⟩ := Go.exists_file hr package
  obtain ⟨spec, structs, hspec, -, rfl⟩ := Go.file_eq_ok_iff.mp hfile
  have hnames : s.properties.map Prod.fst =
      f.resolver.graph.sortedParams.map f.resolver.graph.nameOf :=
    Resolver.map_fst_properties hs
  have hmem : ∀ name, name ∈ s.properties.map Prod.fst ↔
      IsLastSpelling (declaredNames text) name := by
    intro name
    rw [hnames, hg.mem_spellings_iff]
    exact exists_param?_iff_isLastSpelling h
  refine ⟨_, s.properties, _, spec, structs, hnative, rfl, ?_, hmem, ?_, hfile, rfl,
    (Go.specDecl_eq_ok hspec).1, ?_, ?_⟩
  · rw [hnames]
    exact hg.nodup_spellings
  · intro name hname
    obtain ⟨last, hlast, hkey⟩ := exists_isLastSpelling hname
    exact ⟨last, (hmem last).mpr hlast, hkey⟩
  · rw [hnames]
    exact Go.map_key_specDecl hspec
  · intro values name
    rw [Resolver.unknownParameter_mem_issues_iff, ← exists_param?_iff_isLastSpelling h,
      Option.eq_none_iff_forall_ne_some, not_exists]

/-- A parameter that shares its name with its type, and one in two spellings. -/
def sharedNames : String :=
  "## @field \x7bint\x7d Size.x\n## @param \x7bSize\x7d size\n" ++
    "## @param \x7bint\x7d Port\n## @param \x7bint\x7d PORT\n"

theorem declaredNames_sharedNames :
    (ofText "values.yaml" sharedNames).toOption.isSome = true ∧
      declaredNames sharedNames = ["size", "Port", "PORT"] := by
  have hchars : sharedNames.toList = _ :=
    Text.toList_append_eq String.toList_ofList String.toList_ofList
  simp only [ofText, Document.ofText, declaredNames, hchars]
  decide +kernel

/-- Of the latter only the last is a name in the schema and a key of the struct. -/
theorem parameters_sharedNames :
    ∃ f d parameters, ofText "values.yaml" sharedNames = .ok f ∧
      SchemaCompiler.native f.source "" f.resolver = .ok d ∧ d.parameters? = .ok parameters ∧
        "size" ∈ parameters.map Prod.fst ∧ "PORT" ∈ parameters.map Prod.fst ∧
          "Port" ∉ parameters.map Prod.fst := by
  obtain ⟨hread, hdeclared⟩ := declaredNames_sharedNames
  obtain ⟨f, hf⟩ := Option.isSome_iff_exists.mp hread
  rw [toOption_eq_some_iff] at hf
  obtain ⟨d, parameters, _, _, _, hd, hparameters, -, hnames, -⟩ :=
    parameters_by_last_spelling hf "values" ""
  simp only [hdeclared, isLastSpelling_iff] at hnames
  refine ⟨f, d, parameters, hf, hd, hparameters, ?_, ?_, ?_⟩
  · exact (hnames "size").mpr (by decide)
  · exact (hnames "PORT").mpr (by decide)
  · rw [hnames "Port"]
    decide

/-- Two rows for one parameter. -/
def caseVariants : String := "## @param \x7bint\x7d Foo\n## @param \x7bint\x7d foo\n"

theorem caseVariants_parameters :
    ((ofText "values.yaml" caseVariants).toOption.bind fun f =>
      (SchemaCompiler.native "values.yaml" "" f.resolver).toOption.bind fun d =>
        d.parameters?.toOption.map fun parameters =>
          (declaredNames caseVariants, parameters.map Prod.fst,
            f.resolver.issues (.object [("Foo", .null)]))) =
      some (["Foo", "foo"], ["foo"], [.unknownParameter "Foo"]) := by
  decide +kernel

/-- The first spelling is no name of a parameter. -/
theorem not_mem_parameters_caseVariants :
    ∃ f d parameters, ofText "values.yaml" caseVariants = .ok f ∧
      SchemaCompiler.native "values.yaml" "" f.resolver = .ok d ∧
        d.parameters? = .ok parameters ∧ "Foo" ∈ declaredNames caseVariants ∧
          "Foo" ∉ parameters.map Prod.fst ∧
            Issue.unknownParameter "Foo" ∈ f.resolver.issues (.object [("Foo", .null)]) := by
  obtain ⟨f, hf, hrest⟩ := bind_toOption_eq_some_iff.mp caseVariants_parameters
  obtain ⟨d, hd, hrest⟩ := bind_toOption_eq_some_iff.mp hrest
  obtain ⟨parameters, hparameters, hfound⟩ := map_toOption_eq_some_iff.mp hrest
  simp only [Prod.mk.injEq] at hfound
  obtain ⟨hdeclared, hnames, hissues⟩ := hfound
  refine ⟨f, d, parameters, hf, hd, hparameters, ?_, ?_, ?_⟩
  · rw [hdeclared]
    exact List.mem_cons_self
  · rw [hnames]
    decide
  · rw [hissues]
    exact List.mem_cons_self

end ValuesFile

end AnnotatedValues
