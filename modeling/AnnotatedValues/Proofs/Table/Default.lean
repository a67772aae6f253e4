import AnnotatedValues.Proofs.Annotation.Scan
import AnnotatedValues.Proofs.Schema.Annotated
import AnnotatedValues.Proofs.Table.Build

/-!
# Annotated defaults in tables

Every parameter has a row in the table of its section.  Without a value in the
document the row shows the default of the annotation, which is read as YAML
there, while the values schema only takes the quotes off.  The two agree exactly
if YAML reads no other value, or one that is shown in the same way.
-/

namespace AnnotatedValues

open Annotation Fallible

/-! ## Rows of parameters -/

namespace Table

variable {r : Resolver} {values : Document}

/-- The first row of a member is its own. -/
theorem exists_row_of_memberRows {structRows : Listing → Except Unresolved (List Row)}
    {path : String} {slot : Slot} {value? : Option Document} {rows : List Row}
    (h : memberRows r structRows path slot value? = .ok rows) {t : Resolved}
    (ht : r.resolveSlot slot = .ok t) {m : Member} (hm : r.graph.member? slot = some m) :
    ∃ below, rows = ⟨path, m.comment, typeText t,
      valueText t (value?.filter fun value => !value.isNull) m.annotated?⟩ :: below := by
  obtain ⟨type, htype, h⟩ := bind_eq_ok_iff.mp h
  obtain ⟨below, -, h⟩ := bind_eq_ok_iff.mp h
  cases ht.symm.trans htype
  rw [pure_eq_ok_iff, hm] at h
  exact ⟨below.flatten, h.symm⟩

/-- The rows of a parameter stand in the table of its section. -/
theorem exists_table_of_listed {sections : List Section} {tables : List Table}
    (h : r.tables sections values = .ok tables) {name : String}
    (hname : name ∈ Scan.listed sections) {rows : List Row}
    (hrows : paramRows r values name = .ok rows) {row : Row} (hrow : row ∈ rows) :
    ∃ table ∈ tables, row ∈ table.rows := by
  obtain ⟨s, hs, hparam⟩ := List.mem_flatMap.mp hname
  obtain ⟨all, hall, h⟩ := bind_eq_ok_iff.mp h
  obtain ⟨table, htable, hsection⟩ := exists_result_of_mapM hall hs
  obtain ⟨rowLists, hlists, htable'⟩ := bind_eq_ok_iff.mp hsection
  obtain ⟨rows', hrows', hparam'⟩ := exists_result_of_mapM hlists hparam
  cases hrows.symm.trans hparam'
  rw [pure_eq_ok_iff] at h htable'
  subst h htable'
  have hmem : row ∈ rowLists.flatten := List.mem_flatten.mpr ⟨rows, hrows', hrow⟩
  refine ⟨_, List.mem_filter.mpr ⟨htable, ?_⟩, hmem⟩
  rw [Bool.not_eq_true', List.isEmpty_eq_false_iff]
  exact List.ne_nil_of_mem hmem

/-! ## Cells of defaults -/

/-- A text without the blanks around it. -/
def trimmed (text : String) : String := String.ofList (Text.trim text.toList)

theorem unquoted_trimmed (text : String) : unquoted (trimmed text) = unquoted text := by
  simp only [unquoted, unquote, trimmed, String.toList_ofList, Text.trim_trim]

/-- A text between equal quotes that are all of it is a pair of quotes. -/
theorem eq_pair_of_isBetween {quote : Char} {cs : List Char} (h : isBetween quote cs = true)
    (hempty : cs.tail.dropLast = []) : cs = [quote, quote] := by
  unfold isBetween at h
  simp only [Bool.and_eq_true, decide_eq_true_eq, beq_iff_eq] at h
  obtain ⟨⟨hlength, hfirst⟩, hlast⟩ := h
  match cs, hlength with
  | first :: second :: rest, _ =>
      cases rest with
      | nil =>
          have hsecond : second = quote := Option.some.inj hlast
          rw [Option.some.inj hfirst, hsecond]
      | cons third rest => cases hempty

/-- YAML can read nothing and a pair of quotes, and shows a pair of brackets as it is. -/
theorem readLiteral?_pairs :
    (∀ cs ∈ [[], ['"', '"'], ['\'', '\'']], (readLiteral? (String.ofList cs)).isSome = true) ∧
      ∀ brackets ∈ ["\x7b\x7d", "[]"],
        (readLiteral? brackets).map scalarText = some brackets := by
  decide +kernel

/-- A text that denotes the empty string is nothing or a pair of quotes. -/
theorem exists_readLiteral?_of_unquoted_eq_empty {text : String} (h : unquoted text = "") :
    ∃ value, readLiteral? (trimmed text) = some value := by
  have hempty : unquote text.toList = [] := by
    rw [unquoted] at h
    rw [← String.toList_ofList (l := unquote text.toList), h]
    rfl
  have hmem : Text.trim text.toList ∈ [[], ['"', '"'], ['\'', '\'']] := by
    unfold unquote at hempty
    dsimp only at hempty
    split at hempty
    · rename_i hbetween
      rcases (Bool.or_eq_true _ _).mp hbetween with hdouble | hsingle
      · simp [eq_pair_of_isBetween hdouble hempty]
      · simp [eq_pair_of_isBetween hsingle hempty]
    · simp [hempty]
  rw [trimmed]
  exact Option.isSome_iff_exists.mp (readLiteral?_pairs.1 _ hmem)

theorem annotatedText_eq (text : String) :
    annotatedText text =
      if isEmptyBrackets (trimmed text) then trimmed text
      else ((readLiteral? (trimmed text)).map scalarText).getD (unquoted (trimmed text)) := by
  rw [annotatedText, ← trimmed]
  cases readLiteral? (trimmed text) <;> rfl

/-- A default is shown as the string that it denotes without its quotes unless YAML reads another
value. -/
theorem annotatedText_eq_iff (text : String) :
    annotatedText text = scalarText (.string (unquoted text)) ↔
      ∀ value, readLiteral? (trimmed text) = some value →
        scalarText value = scalarText (.string (unquoted text)) := by
  rw [annotatedText_eq]
  by_cases hbrackets : isEmptyBrackets (trimmed text) = true
  · have hmem : trimmed text ∈ ["\x7b\x7d", "[]"] := by simpa [isEmptyBrackets] using hbrackets
    have hread := readLiteral?_pairs.2 _ hmem
    have hshown : ∀ brackets ∈ ["\x7b\x7d", "[]"],
        brackets = scalarText (.string (unquoted brackets)) := by decide
    replace hshown := hshown _ hmem
    rw [unquoted_trimmed] at hshown
    rw [if_pos hbrackets]
    constructor
    · intro _ value hvalue
      rw [hvalue, Option.map_some, Option.some.injEq] at hread
      rw [hread]
      exact hshown
    · intro _
      exact hshown
  · rw [if_neg hbrackets]
    cases hread : readLiteral? (trimmed text) with
    | some value => simp
    | none =>
        have hne : unquoted text ≠ "" := by
          intro hempty
          obtain ⟨value, hvalue⟩ := exists_readLiteral?_of_unquoted_eq_empty hempty
          cases hread.symm.trans hvalue
        have hshown : scalarText (.string (unquoted text)) = unquoted text := by
          rw [scalarText, if_neg (mt String.isEmpty_iff.mp hne)]
        rw [Option.map_none, Option.getD_none, unquoted_trimmed, hshown]
        constructor
        · intro _ value hvalue
          cases hvalue
        · intro _
          rfl

/-- For types that are written as strings. -/
theorem valueText_none_of_isStringLike {t : Resolved} (h : t.isStringLike = true) (d : String) :
    valueText t none (some d) = annotatedText d := by
  unfold Resolved.isStringLike at h
  unfold valueText
  cases ht : t.stripPointer with
  | pointer inner | array inner | map inner | struct ref =>
      rw [ht] at h
      cases h
  | primitive p | format name | semantic s | enum ref =>
      simp only [Option.map_none, Option.getD_none, absentText]

end Table

/-! ## Tables of a values file -/

namespace ValuesFile

variable {source text : String} {f : ValuesFile}

theorem sections_of_ofText (h : ofText source text = .ok f) :
    f.sections = (Scan.ofText text.toList).sections := by
  obtain ⟨g, -, h⟩ := bind_eq_ok_iff.mp h
  obtain ⟨values, -, h⟩ := bind_eq_ok_iff.mp h
  dsimp only at h
  split at h
  · rw [← Except.ok.inj h]
  · cases h

/-- Every parameter is listed in a section. -/
theorem mem_listed_of_param? (h : ofText source text = .ok f) {name key : String}
    (hkey : f.resolver.graph.param? name = some key) : name ∈ Scan.listed f.sections := by
  obtain ⟨before, after, hnames, -⟩ := (exists_param?_iff_isLastSpelling h).mp ⟨key, hkey⟩
  have hdeclared : name ∈ declaredNames text :=
    hnames ▸ List.mem_append_right before List.mem_cons_self
  rw [sections_of_ofText h]
  exact (Scan.mem_listed_ofText text.toList).mpr hdeclared

/-- A parameter that is written as a string, has a default in its annotation, and has no value or
null in the document has a row in the tables.  Its cell shows the default of the values schema
exactly if YAML reads no other value in the annotation, or one that is shown alike. -/
theorem shown_default_iff (h : ofText source text = .ok f) {name key : String}
    (hkey : f.resolver.graph.param? name = some key) {t : Resolved}
    (ht : f.resolver.resolveSlot (.node key) = .ok t) (hstring : t.isStringLike = true)
    {m : Member} (hm : f.resolver.graph.member? (.node key) = some m) {d : String}
    (hd : m.annotated? = some d) (hvalue : ∀ value ∈ f.values.get? name, value = .null)
    (declarations : String) :
    ∃ definition tables table row below,
      SchemaCompiler.native f.source declarations f.resolver = .ok definition ∧
      definition.default? name = some (.string (unquoted d)) ∧
      f.tables = .ok tables ∧ table ∈ tables ∧ row ∈ table.rows ∧
      Table.paramRows f.resolver f.values name = .ok (row :: below) ∧
      (row.value = Table.scalarText (.string (unquoted d)) ↔
        ∀ value, readLiteral? (Table.trimmed d) = some value →
          Table.scalarText value = Table.scalarText (.string (unquoted d))) := by
  have hr := complete_of_ofText h
  have hdefault : f.resolver.graph.default? (.node key) = some ⟨d, .annotated⟩ := by
    obtain ⟨text, htext, rfl⟩ := Option.map_eq_some_iff.mp hd
    obtain ⟨hdefault, hsource⟩ := Option.filter_eq_some_iff.mp htext
    rw [TypeGraph.default?, hm, Option.bind_some, hdefault]
    cases text
    cases of_decide_eq_true hsource
    rfl
  obtain ⟨definition, hdefinition, hdefault'⟩ :=
    hr.exists_native_default hkey ht hstring hdefault f.source declarations
  obtain ⟨tables, htables⟩ := hr.exists_tables f.sections f.values
  obtain ⟨rows, hrows⟩ := Table.exists_paramRows hr f.values name
  have hmember := hrows
  rw [Table.paramRows, hkey] at hmember
  obtain ⟨below, rfl⟩ := Table.exists_row_of_memberRows hmember ht hm
  obtain ⟨table, htable, hrow⟩ :=
    Table.exists_table_of_listed htables (mem_listed_of_param? h hkey) hrows List.mem_cons_self
  have hnone : ((f.values.get? name).filter fun value => !value.isNull) = none := by
    refine Option.filter_eq_none_iff.mpr fun value hmem => ?_
    rw [hvalue value hmem]
    decide
  refine ⟨definition, tables, table, _, below, hdefinition, hdefault', ?_, htable, hrow, hrows, ?_⟩
  · rw [ValuesFile.tables, htables]
    rfl
  · dsimp only
    rw [hnone, hd, Table.valueText_none_of_isStringLike hstring, Table.annotatedText_eq_iff]

/-- A parameter with a word as its default. -/
def taggedImage : String := "## @param \x7bstring\x7d image=nginx\n"

theorem taggedImage_read :
    ((ofText "values.yaml" taggedImage).toOption.map fun f =>
      (f.resolver.graph.param? "image",
        (f.resolver.graph.member? (.node "image")).map Member.annotated?,
        (f.resolver.resolveSlot (.node "image")).toOption.map Resolved.isStringLike,
        f.values.get? "image")) =
      some (some "image", some (some "nginx"), some true, none) ∧
      (readLiteral? (Table.trimmed "nginx")).map Table.scalarText =
        some (Table.scalarText (.string (unquoted "nginx"))) := by
  decide +kernel

/-- The word is shown as it is. -/
theorem shown_taggedImage :
    ∃ f tables table row, ofText "values.yaml" taggedImage = .ok f ∧ f.tables = .ok tables ∧
      table ∈ tables ∧ row ∈ table.rows ∧ row.value = "nginx" := by
  obtain ⟨hread, hword⟩ := taggedImage_read
  obtain ⟨f, hf, hread⟩ := map_toOption_eq_some_iff.mp hread
  simp only [Prod.mk.injEq] at hread
  obtain ⟨hkey, hmember, htype, hvalue⟩ := hread
  obtain ⟨m, hm, hd⟩ := Option.map_eq_some_iff.mp hmember
  obtain ⟨t, ht, hstring⟩ := map_toOption_eq_some_iff.mp htype
  have hnull : ∀ value ∈ f.values.get? "image", value = .null := by
    rw [hvalue]
    intro value h
    cases h
  obtain ⟨_, tables, table, row, _, -, -, htables, htable, hrow, -, hshown⟩ :=
    shown_default_iff hf hkey ht hstring hm hd hnull ""
  refine ⟨f, tables, table, row, hf, htables, htable, hrow, hshown.mpr ?_⟩
  intro value hvalue
  rw [hvalue] at hword
  exact Option.some.inj hword

/-- A parameter with a number that ends in zero as its default. -/
def versioned : String := "## @param \x7bstring\x7d version=1.10\n"

/-- The zero is in the schema and not in the table. -/
theorem shown_versioned :
    ((ofText "values.yaml" versioned).toOption.bind fun f =>
      f.tables.toOption.bind fun tables =>
        (SchemaCompiler.native f.source "" f.resolver).toOption.map fun d =>
          ((f.resolver.graph.member? (.node "version")).bind Member.annotated?,
            f.values.get? "version", d.default? "version",
            tables.flatMap fun table => table.rows.map fun row => [row.path, row.type, row.value])) =
      some (some "1.10", none, some (.string "1.10"), [["version", "string", "1.1"]]) := by
  decide +kernel

end ValuesFile

end AnnotatedValues
