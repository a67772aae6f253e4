import AnnotatedValues.Proofs.Annotation.Sections
import AnnotatedValues.Proofs.Table.Default
import AnnotatedValues.Proofs.Table.Paths

/-!
# Parameters in tables

The tables are the rows of the parameters, section by section.  A parameter is
listed under its last spelling alone, so its rows stand in the section where that
spelling was first declared and nowhere else.  One of them is its own; and where
no name of a parameter has a point in it, no two rows of any tables have one path.
-/

namespace AnnotatedValues

open Annotation Fallible

/-! ## Names as parts of paths -/

namespace Table

theorem isBreak_of_isMemberChar {c : Char} (h : isMemberChar c = true) (hpoint : c ≠ '.') :
    isBreak c = false := by
  rw [isBreak, Bool.or_eq_false_iff, beq_eq_false_iff_ne, beq_eq_false_iff_ne]
  refine ⟨hpoint, ?_⟩
  rintro rfl
  revert h
  decide

theorem isPart_of_isName {name : String} (h : Scan.IsName name) (hpoint : '.' ∉ name.toList) :
    IsPart name := fun c hc => isBreak_of_isMemberChar (h c hc) fun heq => hpoint (heq ▸ hc)

end Table

/-- A field has the name of one of its rows. -/
theorem TypeGraph.exists_row_of_mem_fields {rows : List Row} {g : TypeGraph}
    (hg : TypeGraph.build rows = .ok g) {field : Field} (h : field ∈ g.fields) :
    ∃ row ∈ rows, ∃ parent, row.kind = .field ∧ row.path = [parent, field.name] := by
  have hwell := WellFormed.build hg
  have hfield := hwell.field?_of_mem h
  obtain ⟨type, htype⟩ := Option.isSome_iff_exists.mp (hwell.field_typed hfield)
  rw [field?_build hg] at hfield
  obtain ⟨row, hmem, -⟩ := Row.exists_row_of_foldl_fill hfield htype
  obtain ⟨hrow, hslot⟩ := List.mem_filter.mp hmem
  obtain ⟨⟨parent, name⟩, hpath, heq⟩ := Option.map_eq_some_iff.mp (of_decide_eq_true hslot)
  rw [Slot.field.injEq] at heq
  obtain ⟨-, rfl⟩ := heq
  exact ⟨row, hrow, parent, Row.fieldPath?_eq_some_iff.mp hpath⟩

namespace ValuesFile

variable {source text : String} {f : ValuesFile}

/-- The name of a field is one part of the path that its row has. -/
theorem isSeparator_of_mem_fields (h : ofText source text = .ok f) {field : Field}
    (hfield : field ∈ f.resolver.graph.fields) :
    ∀ c ∈ field.name.toList, Scan.isSeparator c = false := by
  obtain ⟨g, hg, hresolver, -⟩ := exists_build_of_ofText h
  rw [hresolver] at hfield
  have hbare : field.bare ∈ g.bare.fields := by
    rw [← TypeGraph.bare_populate g f.values]
    exact List.mem_map_of_mem hfield
  obtain ⟨original, horiginal, heq⟩ := List.mem_map.mp hbare
  obtain ⟨row, hrow, parent, hkind, hpath⟩ := TypeGraph.exists_row_of_mem_fields hg horiginal
  have hsame : original.bare.name = field.bare.name := congrArg Field.name heq
  change original.name = field.name at hsame
  rw [hsame] at hpath
  exact Scan.isSeparator_of_mem_ofText hrow hkind hpath

theorem plainFields_of_ofText (h : ofText source text = .ok f) :
    Table.PlainFields f.resolver.graph := by
  intro field hfield
  have hname := ((singleLine_graph h).fields field hfield).name
  refine Table.isPart_of_isName hname fun hpoint => ?_
  have hseparator := isSeparator_of_mem_fields h hfield '.' hpoint
  revert hseparator
  decide

theorem isName_of_param? (h : ofText source text = .ok f) {name key : String}
    (hkey : f.resolver.graph.param? name = some key) : Scan.IsName name := by
  obtain ⟨-, node, hnode, -, rfl⟩ := TypeGraph.param?_eq_some_iff.mp hkey
  exact ((singleLine_graph h).nodes _ (TypeGraph.mem_nodes_of_node? hnode)).name

end ValuesFile

/-! ## Tables by their rows -/

namespace Table

/-- The table of a section, by the rows of each name. -/
def ofRows (rows : String → List Row) (s : Section) : Table := ⟨s.title, s.params.flatMap rows⟩

/-- The tables of sections with rows. -/
def allOf (rows : String → List Row) (sections : List Section) : List Table :=
  (sections.map (ofRows rows)).filter fun table => !table.rows.isEmpty

theorem flatMap_rows_allOf (rows : String → List Row) (sections : List Section) :
    (allOf rows sections).flatMap (·.rows) = (Scan.listed sections).flatMap rows := by
  induction sections with
  | nil => rfl
  | cons s sections ih =>
      have hlisted : (Scan.listed (s :: sections)).flatMap rows =
          s.params.flatMap rows ++ (Scan.listed sections).flatMap rows := by
        rw [Scan.listed, List.flatMap_cons, List.flatMap_append]
        rfl
      rw [hlisted, ← ih, allOf, List.map_cons, List.filter_cons]
      split
      · rw [List.flatMap_cons]
        rfl
      · rename_i hempty
        have hnone : s.params.flatMap rows = [] := by
          simpa [ofRows] using hempty
        rw [hnone]
        rfl

/-- The tables are made of the rows of the names that the sections list. -/
theorem exists_tables_eq {r : Resolver} (hr : r.Complete) (sections : List Section)
    (values : Document) :
    ∃ rows : String → List Row, (∀ name, paramRows r values name = .ok (rows name)) ∧
      r.tables sections values = .ok (allOf rows sections) := by
  choose rows hrows using exists_paramRows hr values
  have hmap : ∀ names : List String, names.mapM (paramRows r values) = .ok (names.map rows) := by
    intro names
    rw [mapM_eq_ok_iff, List.forall₂_map_right_iff]
    exact List.forall₂_same.mpr fun name _ => hrows name
  have hsection : ∀ s, ofSection r values s = .ok (ofRows rows s) := by
    intro s
    refine bind_eq_ok_iff.mpr ⟨_, hmap s.params, ?_⟩
    rw [pure_eq_ok_iff, ofRows, List.flatMap_def]
  refine ⟨rows, hrows, bind_eq_ok_iff.mpr ⟨sections.map (ofRows rows), ?_, rfl⟩⟩
  rw [mapM_eq_ok_iff, List.forall₂_map_right_iff]
  exact List.forall₂_same.mpr fun s _ => hsection s

end Table

/-! ## Rows of a values file -/

namespace ValuesFile

open Table

variable {source text : String} {f : ValuesFile} {values : Document}
  {rows : String → List Table.Row}

/-- Only names of parameters have rows. -/
theorem exists_param?_of_rows_ne_nil {r : Resolver} {name : String} {rows : List Table.Row}
    (hrows : paramRows r values name = .ok rows) (hne : rows ≠ []) :
    ∃ key, r.graph.param? name = some key := by
  unfold paramRows at hrows
  split at hrows
  · rename_i key hkey
    exact ⟨key, hkey⟩
  · cases hrows
    exact absurd rfl hne

/-- Names without points share no path. -/
theorem path_ne_of_name_ne (h : ofText source text = .ok f) {name other : String}
    (hne : name ≠ other) (hpoints : ∀ key ∈ f.resolver.graph.params,
      '.' ∉ (f.resolver.graph.nameOf key).toList) {rows rows' : List Table.Row}
    (hrows : paramRows f.resolver values name = .ok rows)
    (hrows' : paramRows f.resolver values other = .ok rows') {row row' : Table.Row}
    (hrow : row ∈ rows) (hrow' : row' ∈ rows') : row.path ≠ row'.path := by
  have hg := (complete_of_ofText h).wellFormed
  have hpart : ∀ {name key : String}, f.resolver.graph.param? name = some key → IsPart name :=
    fun hkey => isPart_of_isName (isName_of_param? h hkey)
      (TypeGraph.nameOf_of_param? hkey ▸ hpoints _ (hg.hasMember_of_param? hkey))
  obtain ⟨key, hkey⟩ := exists_param?_of_rows_ne_nil hrows (List.ne_nil_of_mem hrow)
  obtain ⟨key', hkey'⟩ := exists_param?_of_rows_ne_nil hrows' (List.ne_nil_of_mem hrow')
  obtain ⟨rest, hrest, hpath⟩ :=
    (memberPaths_paramRows hg (plainFields_of_ofText h) hkey hrows).exists_rest hrow
  obtain ⟨rest', hrest', hpath'⟩ :=
    (memberPaths_paramRows hg (plainFields_of_ofText h) hkey' hrows').exists_rest hrow'
  intro heq
  rw [heq, hpath'] at hpath
  exact hne (String.toList_inj.mp
    (Text.append_inj_of_separator (hpart hkey') (hpart hkey) hrest' hrest hpath).1.symm)

theorem nodup_listed (h : ofText source text = .ok f) : (Scan.listed f.sections).Nodup := by
  rw [sections_of_ofText h]
  exact (Scan.sectioned_ofText text.toList).nodup

/-- No two rows have one path if no name of a parameter has a point in it. -/
theorem nodup_paths (h : ofText source text = .ok f)
    (hrows : ∀ name, paramRows f.resolver values name = .ok (rows name))
    (hpoints : ∀ key ∈ f.resolver.graph.params, '.' ∉ (f.resolver.graph.nameOf key).toList) :
    (((allOf rows f.sections).flatMap (·.rows)).map (·.path)).Nodup := by
  have hg := (complete_of_ofText h).wellFormed
  rw [flatMap_rows_allOf, List.map_flatMap, List.nodup_flatMap]
  constructor
  · intro name _
    by_cases hne : rows name = []
    · rw [hne]
      exact List.nodup_nil
    · obtain ⟨key, hkey⟩ := exists_param?_of_rows_ne_nil (hrows name) hne
      exact (memberPaths_paramRows hg (plainFields_of_ofText h) hkey (hrows name)).nodup
  · refine (List.nodup_iff_pairwise_ne.mp (nodup_listed h)).imp fun hne path hpath hpath' => ?_
    obtain ⟨row, hrow, rfl⟩ := List.mem_map.mp hpath
    obtain ⟨row', hrow', heq⟩ := List.mem_map.mp hpath'
    exact path_ne_of_name_ne h hne hpoints (hrows _) (hrows _) hrow hrow' heq.symm

/-- The tables of a values file are made of the rows of its parameters, whatever values they show.
A parameter is listed once: in the section that was open where its spelling was first declared.
One of its rows has its name as the path.  If no name has a point in it, the paths of all rows are
different. -/
theorem parameters_documented_once (h : ofText source text = .ok f) (values : Document) :
    ∃ rows : String → List Table.Row,
      f.resolver.tables f.sections values = .ok (allOf rows f.sections) ∧
      (∀ name, paramRows f.resolver values name = .ok (rows name)) ∧
      (∀ name, rows name ≠ [] → ∃ key ∈ f.resolver.graph.params,
        f.resolver.graph.nameOf key = name) ∧
      (∀ key ∈ f.resolver.graph.params, ∀ name, f.resolver.graph.nameOf key = name →
        (Scan.listed f.sections).count name = 1 ∧
        (∃ row below, rows name = row :: below ∧ row.path = name ∧
          ∀ other ∈ below, other.path ≠ name) ∧
        ∃ before after i s,
          Scan.FirstDeclared name (Scan.directives 1 (Text.lines text.toList)) before after ∧
          Scan.Lists name before after f.sections i s ∧ ofRows rows s ∈ allOf rows f.sections) ∧
      ((∀ key ∈ f.resolver.graph.params, '.' ∉ (f.resolver.graph.nameOf key).toList) →
        (((allOf rows f.sections).flatMap (·.rows)).map (·.path)).Nodup) := by
  have hr := complete_of_ofText h
  have hg := hr.wellFormed
  obtain ⟨rows, hrows, htables⟩ := exists_tables_eq hr f.sections values
  refine ⟨rows, htables, hrows, fun name hne => ?_, ?_, nodup_paths h hrows⟩
  · obtain ⟨key, hkey⟩ := exists_param?_of_rows_ne_nil (hrows name) hne
    exact ⟨key, hg.hasMember_of_param? hkey, TypeGraph.nameOf_of_param? hkey⟩
  · rintro key hmem name rfl
    have hkey := hg.param?_nameOf hmem
    have hlisted := mem_listed_of_param? h hkey
    obtain ⟨row, below, heq, hpath, hbelow⟩ :=
      (memberPaths_paramRows hg (plainFields_of_ofText h) hkey (hrows _)).own
    refine ⟨List.count_eq_one_of_mem (nodup_listed h) hlisted,
      ⟨row, below, heq, hpath, fun other hother => (hbelow other hother).ne⟩, ?_⟩
    have hsections := Scan.sectioned_ofText text.toList
    rw [← sections_of_ofText h] at hsections
    obtain ⟨before, after, i, s, hfirst, hlists⟩ := hsections.placed _ hlisted
    refine ⟨before, after, i, s, hfirst, hlists, List.mem_filter.mpr ⟨?_, ?_⟩⟩
    · exact List.mem_map_of_mem (List.mem_of_getElem? hlists.at_index)
    · have hrow : row ∈ (ofRows rows s).rows :=
        List.mem_flatMap.mpr ⟨_, hlists.listed, heq ▸ List.mem_cons_self⟩
      rw [Bool.not_eq_true', List.isEmpty_eq_false_iff]
      exact List.ne_nil_of_mem hrow

/-- A parameter in two spellings and two sections, and an array with two elements. -/
def storageFile : String :=
  "## @param \x7bint\x7d Port\n## @section Storage\n## @param \x7b[]Disk\x7d disks\n" ++
    "## @field \x7bint\x7d Disk.size\n## @param \x7bint\x7d port\n" ++
      "## @param \x7bint\x7d Port\ndisks:\n- size: 1\n- size: 2\n"

theorem params_storageFile :
    ((ofText "values.yaml" storageFile).toOption.map fun f =>
      (f.resolver.graph.params, f.resolver.graph.params.map f.resolver.graph.nameOf)) =
      some (["port", "disks"], ["Port", "disks"]) := by
  have hchars : storageFile.toList = _ := Text.toList_append_eq
    (Text.toList_append_eq String.toList_ofList String.toList_ofList) String.toList_ofList
  simp only [ofText, Document.ofText, hchars]
  decide +kernel

/-- The parameter has a single row, under its last spelling. -/
theorem documented_storageFile :
    ∃ f rows row below, ofText "values.yaml" storageFile = .ok f ∧
      f.tables = .ok (allOf rows f.sections) ∧
      (((allOf rows f.sections).flatMap (·.rows)).map (·.path)).Nodup ∧
      (Scan.listed f.sections).count "Port" = 1 ∧ rows "Port" = row :: below ∧
      row.path = "Port" := by
  obtain ⟨f, hf, hparams⟩ := map_toOption_eq_some_iff.mp params_storageFile
  obtain ⟨hkeys, hnames⟩ := Prod.mk.inj hparams
  obtain ⟨rows, htables, -, -, hsingle, hnodup⟩ := parameters_documented_once hf f.values
  have hpoints : ∀ key ∈ f.resolver.graph.params,
      '.' ∉ (f.resolver.graph.nameOf key).toList := by
    intro key hkey
    have hname := List.mem_map_of_mem (f := f.resolver.graph.nameOf) hkey
    rw [hnames] at hname
    have hplain : ∀ name ∈ ["Port", "disks"], '.' ∉ name.toList := by decide
    exact hplain _ hname
  have hport : f.resolver.graph.nameOf "port" = "Port" := by
    rw [hkeys] at hnames
    exact (List.cons.inj hnames).1
  have hmem : "port" ∈ f.resolver.graph.params := hkeys ▸ List.mem_cons_self
  obtain ⟨hcount, ⟨row, below, hrows, hpath, -⟩, -⟩ := hsingle "port" hmem "Port" hport
  refine ⟨f, rows, row, below, hf, ?_, hnodup hpoints, hcount, hrows, hpath⟩
  rw [ValuesFile.tables, htables]
  rfl

end ValuesFile

end AnnotatedValues
