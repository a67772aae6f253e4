import AnnotatedValues.Annotation.Scan
import AnnotatedValues.Proofs.Annotation.Line
import AnnotatedValues.Proofs.Graph.Rows

/-!
# What scanning keeps

A text is scanned line by line, and only lines with a directive have an effect.
The sections list the parameters that have rows, and no others.
-/

namespace AnnotatedValues.Annotation

/-- The row with one more value. -/
def Row.withValue (row : Row) (token : String) : Row :=
  { row with choices := row.choices ++ [token] }

/-- The section with one more parameter. -/
def Section.adding (s : Section) (name : String) : Section :=
  { s with params := s.params ++ [name] }

namespace Scan

/-- What the directives of the lines keep, scanning the lines keeps. -/
theorem run_induction {motive : State → Prop} {texts : List (List Char)}
    (step : ∀ s line text directive, text ∈ texts → Directive.ofLine? text = some directive →
      motive s → motive (apply s line directive)) {s : State} (hs : motive s) (line : Nat) :
    motive (run s line texts) := by
  induction texts generalizing s line with
  | nil => exact hs
  | cons text texts ih =>
      rw [run]
      refine ih (fun s line other directive hother => step s line other directive
        (List.mem_cons_of_mem text hother)) ?_ (line + 1)
      unfold Scan.step
      split
      · rename_i directive hdirective
        exact step s line text directive List.mem_cons_self hdirective hs
      · exact hs

/-! ## Last rows and sections -/

theorem addValue_concat (token : String) (rows : List Row) (row : Row) :
    addValue token (rows ++ [row]) = rows ++ [row.withValue token] := by
  induction rows with
  | nil => rfl
  | cons first rows ih =>
      cases rows with
      | nil => rfl
      | cons second rows => exact congrArg (List.cons first) ih

theorem addToLast_concat (name : String) (front : List Section) (last : Section) :
    addToLast name (front ++ [last]) = front ++ [last.adding name] := by
  induction front with
  | nil => rfl
  | cons first front ih =>
      cases front with
      | nil => rfl
      | cons second front => exact congrArg (List.cons first) ih

/-! ## Rows of fields -/

/-- A line for a field adds at most a row, for a name in the line's name and a parent that is in it
too or opened. -/
theorem addField_cases (s : State) (line : Nat) (m : Member) :
    ((addField s line m).scan.rows = s.scan.rows ∧
        (addField s line m).scan.sections = s.scan.sections ∧
          (addField s line m).opened = s.opened) ∨
      ∃ parent name, addField s line m = addRow s (memberRow line .field [parent, name] m) ∧
        (∀ c ∈ name.toList, c ∈ m.name) ∧
          ((∀ c ∈ parent.toList, c ∈ m.name) ∨ s.opened = .typedef parent) := by
  have hpiece : ∀ piece ∈ Text.splitBy isSeparator m.name,
      ∀ c ∈ (String.ofList piece).toList, c ∈ m.name := by
    intro piece hpiece c hc
    rw [String.toList_ofList] at hc
    exact (Text.mem_of_mem_splitBy hpiece hc).1
  unfold addField
  dsimp only
  split
  · rename_i parent field hsplit
    rw [hsplit] at hpiece
    split
    · exact Or.inl ⟨rfl, rfl, rfl⟩
    · refine Or.inr ⟨_, _, rfl, hpiece field ?_, Or.inl (hpiece parent ?_)⟩
      · exact List.mem_cons_of_mem _ List.mem_cons_self
      · exact List.mem_cons_self
  · split
    · rename_i parent hopened
      refine Or.inr ⟨_, _, rfl, fun c hc => ?_, Or.inr hopened⟩
      rwa [String.toList_ofList] at hc
    · exact Or.inl ⟨rfl, rfl, rfl⟩
  · exact Or.inl ⟨rfl, rfl, rfl⟩

/-! ## Parameters in sections -/

/-- The names of the parameters that sections list. -/
def listed (sections : List Section) : List String := sections.flatMap (·.params)

/-- The names of the parameters that rows declare. -/
def declared (rows : List Row) : List String := rows.filterMap (Row.declaredName? .param)

/-- A parameter that is added is listed behind all others. -/
theorem listed_addToLast (name : String) (sections : List Section) :
    listed (addToLast name sections) = listed sections ++ [name] := by
  rcases List.eq_nil_or_concat sections with rfl | ⟨front, last, rfl⟩
  · rfl
  · rw [List.concat_eq_append, addToLast_concat]
    simp [listed, Section.adding]

theorem mem_listed_register {name other : String} {sections : List Section} :
    other ∈ listed (register name sections) ↔ other ∈ listed sections ∨ other = name := by
  unfold register
  split
  · rename_i hlisted
    obtain ⟨s, hs, hname⟩ := List.any_eq_true.mp hlisted
    refine ⟨Or.inl, fun h => h.elim id ?_⟩
    rintro rfl
    exact List.mem_flatMap.mpr ⟨s, hs, List.contains_iff_mem.mp hname⟩
  · rw [listed_addToLast, List.mem_append, List.mem_singleton]

theorem declared_append (rows rows' : List Row) :
    declared (rows ++ rows') = declared rows ++ declared rows' := List.filterMap_append

theorem declared_addValue (token : String) (rows : List Row) :
    declared (addValue token rows) = declared rows := by
  rcases List.eq_nil_or_concat rows with rfl | ⟨front, last, rfl⟩
  · rfl
  · rw [List.concat_eq_append, addValue_concat, declared_append, declared_append]
    rfl

/-- The sections list exactly the parameters that have rows. -/
def Listed (scan : Scan) : Prop := ∀ name, name ∈ listed scan.sections ↔ name ∈ declared scan.rows

/-- A row that declares no parameter leaves them as they are. -/
theorem Listed.addRow {s : State} (h : Listed s.scan) {row : Row}
    (hrow : row.declaredName? .param = none) : Listed (addRow s row).scan := by
  intro name
  change name ∈ listed s.scan.sections ↔ name ∈ declared (s.scan.rows ++ [row])
  have hnone : declared [row] = [] := List.filterMap_cons_none hrow
  rw [declared_append, hnone, List.append_nil, h name]

theorem Listed.apply {s : State} (h : Listed s.scan) (line : Nat) (directive : Directive) :
    Listed (apply s line directive).scan := by
  cases directive with
  | «section» title =>
      intro name
      change name ∈ listed (s.scan.sections ++ [⟨_, []⟩]) ↔ _
      rw [listed, List.flatMap_append, List.flatMap_singleton, List.append_nil]
      exact h name
  | typedef name description => exact h.addRow rfl
  | enum base name description => exact h.addRow rfl
  | value token =>
      rw [Scan.apply]
      split
      · intro name
        change name ∈ listed s.scan.sections ↔ name ∈ declared (addValue _ s.scan.rows)
        rw [declared_addValue, h name]
      · exact h
  | param m =>
      intro name
      change name ∈ listed (register _ s.scan.sections) ↔ name ∈ declared (s.scan.rows ++ [_])
      rw [mem_listed_register, h name, declared_append, List.mem_append]
      exact or_congr_right List.mem_singleton.symm
  | field m =>
      rw [Scan.apply]
      have hopened : Listed (if s.opened = .enum then { s with opened := .nothing } else s).scan := by
        split
        · exact h
        · exact h
      rcases addField_cases _ line m with ⟨hrows, hsections, -⟩ | ⟨parent, name, hrow, -⟩
      · intro name
        rw [hrows, hsections]
        exact hopened name
      · rw [hrow]
        exact hopened.addRow rfl

/-- The sections of a text list the parameters that have rows. -/
theorem mem_listed_ofText (text : List Char) {name : String} :
    name ∈ listed (ofText text).sections ↔ name ∈ declared (ofText text).rows :=
  run_induction (motive := fun s => Listed s.scan)
    (fun _ line _ directive _ _ h => h.apply line directive) (fun _ => Iff.rfl) 1 name

/-! ## Rows on single lines -/

/-- A name is made of the characters of names. -/
def IsName (name : String) : Prop := ∀ c ∈ name.toList, isMemberChar c = true

theorem isName_ofList {cs : List Char} (h : ∀ c ∈ cs, isMemberChar c = true) :
    IsName (String.ofList cs) := by
  rwa [IsName, String.toList_ofList]

/-- The names of the row are names, and its texts hold no line feed. -/
structure SingleLine (row : Row) : Prop where
  path : ∀ name ∈ row.path, IsName name
  default : '\n' ∉ row.default.toList
  description : '\n' ∉ row.description.toList

/-- All rows, and the type that is open for fields. -/
structure State.SingleLine (s : State) : Prop where
  rows : ∀ row ∈ s.scan.rows, Scan.SingleLine row
  opened : ∀ name, s.opened = .typedef name → IsName name

theorem singleLine_memberRow {text : List Char} (htext : '\n' ∉ text) {m : Member}
    (hm : m.IsOf text) {path : List String} (hpath : ∀ name ∈ path, IsName name) (line : Nat)
    (kind : Kind) : SingleLine (memberRow line kind path m) where
  path := hpath
  default := by
    rw [memberRow, String.toList_ofList]
    split
    · cases hdefault : blockDefault? m.block with
      | none => exact List.not_mem_nil
      | some default => exact fun h => htext (hm.block (subset_of_blockDefault? hdefault h))
    · exact fun h => htext (hm.default h)
  description := by
    rw [memberRow, String.toList_ofList]
    exact fun h => htext (hm.description h)

theorem singleLine_declarationRow {text : List Char} (htext : '\n' ∉ text)
    {name description : List Char} (hname : ∀ c ∈ name, isMemberChar c = true)
    (hdescription : description ⊆ text) (line : Nat) (kind : Kind) (base : List Char) :
    SingleLine (declarationRow line kind name base description) where
  path := by
    intro other hother
    rw [List.mem_singleton.mp hother]
    exact isName_ofList hname
  default := List.not_mem_nil
  description := by
    rw [declarationRow, String.toList_ofList]
    exact fun h => htext (hdescription h)

theorem singleLine_addValue (token : String) {rows : List Row} (h : ∀ row ∈ rows, SingleLine row) :
    ∀ row ∈ addValue token rows, SingleLine row := by
  rcases List.eq_nil_or_concat rows with rfl | ⟨front, last, rfl⟩
  · exact h
  · rw [List.concat_eq_append, List.forall_mem_append] at h
    rw [List.concat_eq_append, addValue_concat, List.forall_mem_append]
    have hlast := h.2 last List.mem_cons_self
    exact ⟨h.1, List.forall_mem_singleton.mpr ⟨hlast.path, hlast.default, hlast.description⟩⟩

namespace State.SingleLine

variable {s : State}

theorem addRow (h : s.SingleLine) {row : Row} (hrow : Scan.SingleLine row) :
    (addRow s row).SingleLine where
  rows := by
    intro other hother
    rcases List.mem_append.mp hother with hold | hnew
    · exact h.rows other hold
    · rw [List.mem_singleton.mp hnew]
      exact hrow
  opened := h.opened

/-- An enumeration ends before a field. -/
theorem closeEnum (h : s.SingleLine) :
    State.SingleLine (if s.opened = .enum then { s with opened := .nothing } else s) := by
  split
  · exact ⟨h.rows, fun name hname => by cases hname⟩
  · exact h

theorem addField (h : s.SingleLine) {text : List Char} (htext : '\n' ∉ text) {m : Member}
    (hm : m.IsOf text) (line : Nat) : (addField s line m).SingleLine := by
  rcases addField_cases s line m with ⟨hrows, -, hkept⟩ | ⟨parent, name, hrow, hname, hparent⟩
  · exact ⟨hrows ▸ h.rows, hkept ▸ h.opened⟩
  · have hpath : ∀ part ∈ [parent, name], IsName part := by
      intro part hpart
      rcases List.mem_pair.mp hpart with rfl | rfl
      · rcases hparent with hsplit | htypedef
        · exact fun c hc => hm.name c (hsplit c hc)
        · exact h.opened part htypedef
      · exact fun c hc => hm.name c (hname c hc)
    rw [hrow]
    exact h.addRow (singleLine_memberRow htext hm hpath _ _)

theorem apply (h : s.SingleLine) {text : List Char} (htext : '\n' ∉ text) {directive : Directive}
    (hdirective : directive.IsOf text) (line : Nat) : (apply s line directive).SingleLine := by
  cases directive with
  | «section» title => exact ⟨h.rows, fun name hname => by cases hname⟩
  | typedef name description =>
      refine ⟨(h.addRow (singleLine_declarationRow htext hdirective.1 hdirective.2 _ _ _)).rows, ?_⟩
      intro other hother
      cases hother
      exact isName_ofList hdirective.1
  | enum base name description =>
      exact ⟨(h.addRow (singleLine_declarationRow htext hdirective.1 hdirective.2 _ _ _)).rows,
        fun name hname => by cases hname⟩
  | value token =>
      rw [Scan.apply]
      split
      · exact ⟨singleLine_addValue _ h.rows, h.opened⟩
      · exact h
  | param m =>
      have hpath : ∀ name ∈ [String.ofList m.name], IsName name := by
        intro name hname
        rw [List.mem_singleton.mp hname]
        exact isName_ofList hdirective.name
      exact ⟨(h.addRow (singleLine_memberRow htext hdirective hpath _ _)).rows,
        fun name hname => by cases hname⟩
  | field m =>
      rw [Scan.apply]
      exact h.closeEnum.addField htext hdirective line

end State.SingleLine

/-- The rows of a text hold names and texts without line feeds. -/
theorem singleLine_of_mem_ofText {text : List Char} {row : Row} (h : row ∈ (ofText text).rows) :
    SingleLine row := by
  have hempty : State.SingleLine empty := by
    constructor
    · intro row hrow
      cases hrow
    · intro name hname
      cases hname
  exact (run_induction (motive := State.SingleLine) (fun s line other directive hother hdirective hs =>
    hs.apply (Text.newline_not_mem_of_mem_lines hother) (Directive.isOf_of_ofLine? hdirective) line)
    hempty 1).rows row h

/-! ## Values of enumerations -/

/-- The values of the row are tokens, if it is of an enumeration. -/
def Tokenized (row : Row) : Prop :=
  row.kind = .enum → ∀ value ∈ row.choices, ∀ c ∈ value.toList, Text.isBlank c = false

theorem tokenized_addValue {token : List Char} (htoken : ∀ c ∈ token, Text.isBlank c = false)
    {rows : List Row} (h : ∀ row ∈ rows, Tokenized row) :
    ∀ row ∈ addValue (String.ofList token) rows, Tokenized row := by
  rcases List.eq_nil_or_concat rows with rfl | ⟨front, last, rfl⟩
  · exact h
  · rw [List.concat_eq_append, List.forall_mem_append, List.forall_mem_singleton] at h
    rw [List.concat_eq_append, addValue_concat, List.forall_mem_append, List.forall_mem_singleton]
    refine ⟨h.1, fun hkind => List.forall_mem_append.mpr ⟨h.2 hkind, ?_⟩⟩
    rw [List.forall_mem_singleton, String.toList_ofList]
    exact htoken

theorem tokenized_addRow {s : State} (h : ∀ row ∈ s.scan.rows, Tokenized row) {row : Row}
    (hrow : Tokenized row) : ∀ other ∈ (addRow s row).scan.rows, Tokenized other := by
  intro other hother
  rcases List.mem_append.mp hother with hold | hnew
  · exact h other hold
  · rw [List.mem_singleton.mp hnew]
    exact hrow

theorem tokenized_apply {s : State} (h : ∀ row ∈ s.scan.rows, Tokenized row) {text : List Char}
    {directive : Directive} (hdirective : Directive.ofLine? text = some directive) (line : Nat) :
    ∀ row ∈ (apply s line directive).scan.rows, Tokenized row := by
  have hmember : ∀ {kind : Kind} {path : List String} {m : Member}, kind ≠ .enum →
      Tokenized (memberRow line kind path m) := fun hkind henum => absurd henum hkind
  cases directive with
  | «section» title => exact h
  | typedef name description => exact tokenized_addRow h fun hkind => by cases hkind
  | enum base name description => exact tokenized_addRow h fun _ value hvalue => by cases hvalue
  | value token =>
      rw [apply]
      split
      · exact tokenized_addValue (isBlank_of_ofLine?_value hdirective) h
      · exact h
  | param m => exact tokenized_addRow h (hmember (by decide))
  | field m =>
      rw [apply]
      have hopened : ∀ row ∈ (if s.opened = .enum then { s with opened := .nothing } else s).scan.rows,
          Tokenized row := by
        split
        · exact h
        · exact h
      rcases addField_cases _ line m with ⟨hrows, -, -⟩ | ⟨parent, name, hrow, -⟩
      · rw [hrows]
        exact hopened
      · rw [hrow]
        exact tokenized_addRow hopened (hmember (by decide))

/-- The values of the enumerations of a text hold no blanks. -/
theorem tokenized_of_mem_ofText {text : List Char} {row : Row} (h : row ∈ (ofText text).rows) :
    Tokenized row :=
  run_induction (motive := fun s => ∀ row ∈ s.scan.rows, Tokenized row)
    (fun _ line _ _ _ hdirective hs => tokenized_apply hs hdirective line) (List.forall_mem_nil _) 1
    row h

end Scan

end AnnotatedValues.Annotation
