import AnnotatedValues.Go.File
import AnnotatedValues.Proofs.Text.Lines

/-!
# Go files as texts with line feeds

A file is a list of texts with a line feed behind each: those of its head, and
those of its declarations with an empty one between any two.  Each text is a
line of the file unless it holds line feeds of its own.
-/

namespace AnnotatedValues

open Text

namespace Go

/-! ## Terminated texts -/

/-- The texts with a line feed behind each. -/
def terminated (texts : List String) : String := String.join (texts.map (· ++ "\n"))

theorem terminated_cons (text : String) (texts : List String) :
    terminated (text :: texts) = text ++ "\n" ++ terminated texts := by
  rw [terminated, List.map_cons, String.join_cons]
  rfl

theorem terminated_append (texts more : List String) :
    terminated (texts ++ more) = terminated texts ++ terminated more := by
  rw [terminated, List.map_append, String.join_append]
  rfl

theorem terminated_flatMap {α : Type} (f : α → List String) (xs : List α) :
    terminated (xs.flatMap f) = String.join (xs.map fun x => terminated (f x)) := by
  induction xs with
  | nil => rfl
  | cons x xs ih =>
      rw [List.flatMap_cons, terminated_append, ih, List.map_cons, String.join_cons]

/-- A terminated text has the lines of each of its texts, and an empty one behind them. -/
theorem lines_terminated (texts : List String) :
    lines (terminated texts).toList = texts.flatMap (fun text => lines text.toList) ++ [[]] := by
  induction texts with
  | nil => rfl
  | cons text texts ih =>
      have htext : (terminated (text :: texts)).toList =
          text.toList ++ '\n' :: (terminated texts).toList := by
        rw [terminated_cons, String.toList_append, String.toList_append, List.append_assoc]
        rfl
      rw [htext, lines_append, ih, List.flatMap_cons, List.append_assoc]

theorem terminated_singleton (text : String) : terminated [text] = text ++ "\n" := by
  rw [terminated_cons]
  exact String.append_empty

/-! ## Fields -/

/-- The value of the default marker, if there is one. -/
def FieldDecl.default? (f : FieldDecl) : Option DefaultValue :=
  f.member.default?.bind fun d => DefaultValue.ofText? d.text f.type

def FieldDecl.format? (f : FieldDecl) : Option String :=
  match f.type.stripPointer with
  | .format name => some name
  | _ => none

/-- A marker without its line feed. -/
def markerLine (name value : String) : String := "\t// +kubebuilder:" ++ name ++ value

def FieldDecl.commentLines (f : FieldDecl) : List String :=
  if f.member.comment.isEmpty then [] else ["\t// " ++ f.member.comment]

def FieldDecl.formatLines (f : FieldDecl) : List String :=
  f.format?.toList.map fun name => markerLine "validation:Format=" name

def FieldDecl.choiceLines (f : FieldDecl) : List String :=
  if f.member.choices.isEmpty then []
  else [markerLine "validation:Enum=" (choicesText f.member.choices)]

def FieldDecl.defaultLines (f : FieldDecl) : List String :=
  f.default?.toList.map fun value => markerLine "default:=" (defaultText value)

def FieldDecl.tag (f : FieldDecl) : String :=
  "`json:\"" ++ f.key ++ (if f.mayBeOmitted then ",omitempty" else "") ++ "\"`"

def FieldDecl.line (f : FieldDecl) : String :=
  "\t" ++ f.ident ++ " " ++ typeText f.type ++ " " ++ f.tag

def FieldDecl.lines (f : FieldDecl) : List String :=
  f.commentLines ++ f.formatLines ++ f.choiceLines ++ f.defaultLines ++ [f.line]

theorem FieldDecl.terminated_commentLines (f : FieldDecl) : terminated f.commentLines =
    if f.member.comment.isEmpty then "" else "\t// " ++ f.member.comment ++ "\n" := by
  unfold FieldDecl.commentLines
  split
  · rfl
  · exact terminated_singleton _

theorem FieldDecl.terminated_formatLines (f : FieldDecl) :
    terminated f.formatLines = f.formatText := by
  unfold FieldDecl.formatLines FieldDecl.format? FieldDecl.formatText
  cases f.type.stripPointer with
  | format name => exact terminated_singleton _
  | _ => rfl

theorem FieldDecl.terminated_choiceLines (f : FieldDecl) : terminated f.choiceLines =
    if f.member.choices.isEmpty then ""
    else marker "validation:Enum=" (choicesText f.member.choices) := by
  unfold FieldDecl.choiceLines
  split
  · rfl
  · exact terminated_singleton _

theorem FieldDecl.terminated_defaultLines (f : FieldDecl) : terminated f.defaultLines =
    match f.default? with
    | some value => marker "default:=" (defaultText value)
    | none => "" := by
  unfold FieldDecl.defaultLines
  cases f.default? with
  | none => rfl
  | some value => exact terminated_singleton _

theorem FieldDecl.text_eq (f : FieldDecl) : f.text = terminated f.lines := by
  have htag : " `json:\"" = " " ++ "`json:\"" := rfl
  have hend : "\"`\n" = "\"`" ++ "\n" := rfl
  rw [FieldDecl.lines, terminated_append, terminated_append, terminated_append, terminated_append,
    terminated_singleton, f.terminated_commentLines, f.terminated_formatLines,
    f.terminated_choiceLines, f.terminated_defaultLines, FieldDecl.line, FieldDecl.tag,
    FieldDecl.text, htag, hend]
  simp only [String.append_assoc]
  rfl

/-! ## Declarations -/

def docLines (ident doc : String) : List String :=
  if doc.isEmpty then [] else ["// " ++ ident ++ " " ++ doc]

theorem terminated_docLines (ident doc : String) :
    terminated (docLines ident doc) = docText ident doc := by
  unfold docLines docText
  split
  · rfl
  · exact terminated_singleton _

def StructDecl.lines (s : StructDecl) : List String :=
  docLines s.ident s.doc ++ ("type " ++ s.ident ++ " struct \x7b") ::
    (s.fields.flatMap FieldDecl.lines ++ ["\x7d"])

def EnumDecl.lines (e : EnumDecl) : List String :=
  docLines e.ident e.doc ++ ["// +kubebuilder:validation:Enum=" ++ choicesText e.values,
    "type " ++ e.ident ++ " " ++ e.base.name]

def rootLines : List String :=
  ["type Config struct \x7b", "\tmetav1.TypeMeta   `json:\",inline\"`",
    "\tmetav1.ObjectMeta `json:\"metadata,omitempty\"`", "",
    "\tSpec ConfigSpec `json:\"spec,omitempty\"`", "\x7d"]

def emptyObjectLines : List String := ["type Emptyobject struct\x7b\x7d"]

theorem StructDecl.text_eq (s : StructDecl) : s.text = terminated (s.lines ++ [""]) := by
  have hfields : terminated (s.fields.flatMap FieldDecl.lines) =
      String.join (s.fields.map FieldDecl.text) := by
    rw [terminated_flatMap]
    exact congrArg String.join (List.map_congr_left fun f _ => f.text_eq.symm)
  have hopen : " struct \x7b\n" = " struct \x7b" ++ "\n" := rfl
  have hend : "\x7d\n\n" = "\x7d" ++ "\n" ++ ("" ++ "\n") := rfl
  rw [StructDecl.lines, terminated_append, terminated_append, terminated_cons, terminated_append,
    terminated_docLines, hfields, terminated_singleton, terminated_singleton, StructDecl.text,
    hopen, hend]
  simp only [String.append_assoc]

theorem EnumDecl.text_eq (e : EnumDecl) : e.text = terminated (e.lines ++ [""]) := by
  have hend : "\n\n" = "\n" ++ ("" ++ "\n") := rfl
  rw [EnumDecl.lines, terminated_append, terminated_append, terminated_cons, terminated_docLines,
    terminated_singleton, terminated_singleton, EnumDecl.text, hend]
  simp only [String.append_assoc]

theorem rootText_eq : rootText = terminated (rootLines ++ [""]) := by rfl

theorem emptyObjectText_eq : emptyObjectText = terminated (emptyObjectLines ++ [""]) := by
  rfl

/-! ## Files -/

def importLine (package : Package) : String :=
  "\t" ++ package.name ++ " \"" ++ package.path ++ "\""

/-- The comments in front of the package. -/
def headComments : List String :=
  ["// +kubebuilder:object:generate=true", "// +kubebuilder:object:root=true",
    "// +groupName=values.helm.io", "", "// +versionName=v1alpha1", "",
    "// Code generated by values-gen. DO NOT EDIT."]

def headLines (package : String) (imports : List Package) : List String :=
  headComments ++ ["package " ++ package, "", "import ("] ++ imports.map importLine ++ [")", ""]

/-- The declarations of a file, without the blank lines between them. -/
def File.blocks (f : File) : List (List String) :=
  rootLines :: f.structs.map StructDecl.lines ++ f.enums.map EnumDecl.lines ++
    if f.hasEmptyObject then [emptyObjectLines] else []

def File.lines (f : File) : List String :=
  headLines f.package f.imports ++ [""].intercalate f.blocks

theorem importText_eq (package : Package) : importText package = importLine package ++ "\n" := by
  cases package <;> rfl

theorem terminated_headComments : terminated headComments =
    "// +kubebuilder:object:generate=true\n" ++ "// +kubebuilder:object:root=true\n" ++
      "// +groupName=values.helm.io\n\n" ++ "// +versionName=v1alpha1\n\n" ++
        "// Code generated by values-gen. DO NOT EDIT.\n" := by
  rfl

theorem terminated_importLines (imports : List Package) :
    terminated (imports.map importLine) = String.join (imports.map importText) := by
  rw [terminated, List.map_map]
  exact congrArg String.join (List.map_congr_left fun p _ => (importText_eq p).symm)

theorem headText_eq (package : String) (imports : List Package) :
    headText package imports = terminated (headLines package imports) := by
  have hpackage : terminated ["package " ++ package, "", "import ("] =
      "package " ++ package ++ "\n\n" ++ "import (\n" := by
    have hblank : "\n\n" = "\n" ++ "\n" := rfl
    have hopen : terminated ["", "import ("] = "\n" ++ "import (\n" := rfl
    rw [terminated_cons, hopen, hblank]
    simp only [String.append_assoc]
  have hclose : terminated [")", ""] = ")\n\n" := rfl
  unfold headText
  rw [headLines, terminated_append, terminated_append, terminated_append, terminated_headComments,
    hpackage, terminated_importLines, hclose]
  simp only [String.append_assoc]

theorem flatMap_append_singleton (sep : String) {blocks : List (List String)} (h : blocks ≠ []) :
    blocks.flatMap (· ++ [sep]) = [sep].intercalate blocks ++ [sep] := by
  induction blocks with
  | nil => exact absurd rfl h
  | cons block blocks ih =>
      cases blocks with
      | nil => simp
      | cons next blocks =>
          rw [List.flatMap_cons, ih (List.cons_ne_nil _ _), List.intercalate_cons_cons]
          simp only [List.append_assoc]

theorem File.bodyText_eq_terminated (f : File) :
    f.bodyText = terminated (f.blocks.flatMap (· ++ [""])) := by
  have hstructs : String.join (f.structs.map StructDecl.text) =
      terminated ((f.structs.map StructDecl.lines).flatMap (· ++ [""])) := by
    rw [terminated_flatMap, List.map_map]
    exact congrArg String.join (List.map_congr_left fun s _ => s.text_eq)
  have henums : String.join (f.enums.map EnumDecl.text) =
      terminated ((f.enums.map EnumDecl.lines).flatMap (· ++ [""])) := by
    rw [terminated_flatMap, List.map_map]
    exact congrArg String.join (List.map_congr_left fun e _ => e.text_eq)
  have hempty : (if f.hasEmptyObject then emptyObjectText else "") =
      terminated ((if f.hasEmptyObject then [emptyObjectLines] else []).flatMap (· ++ [""])) := by
    split
    · exact emptyObjectText_eq
    · rfl
  rw [File.bodyText, hstructs, henums, hempty, rootText_eq, ← terminated_append,
    ← terminated_append, ← terminated_append, File.blocks, List.flatMap_append,
    List.cons_append, List.flatMap_cons, List.flatMap_append, List.append_assoc (rootLines ++ [""])]

/-! ## The end of a file -/

/-- Only the end of a text loses blanks. -/
theorem trimmedEnd_append (s : String) {t : String} (ht : trimEnd t.toList ≠ []) :
    trimmedEnd (s ++ t) = s ++ trimmedEnd t := by
  have hends : (t.toList.reverse.dropWhile isBlank).isEmpty = false := by
    rw [List.isEmpty_eq_false_iff]
    exact fun h => ht (by rw [trimEnd, h, List.reverse_nil])
  have hkeeps : trimEnd (s ++ t).toList = s.toList ++ trimEnd t.toList := by
    rw [trimEnd, trimEnd, String.toList_append, List.reverse_append,
      List.dropWhile_append, hends, if_neg Bool.false_ne_true, List.reverse_append,
      List.reverse_reverse]
  rw [trimmedEnd, trimmedEnd, hkeeps, String.ofList_append, String.ofList_toList]

/-- What declarations end with. -/
def endings : List String :=
  ["\x7d", "string", "bool", "int", "int32", "int64", "float32", "float64"]

theorem name_mem_endings (p : Primitive) : p.name ∈ endings := by
  cases p <;> decide

def IsClosed (block : List String) : Prop :=
  ∃ texts before, ∃ last ∈ endings, block = texts ++ [before ++ last]

theorem File.isClosed_of_mem_blocks (f : File) : ∀ block ∈ f.blocks, IsClosed block := by
  intro block hblock
  simp only [File.blocks, List.mem_append, List.mem_cons, List.mem_map] at hblock
  rcases hblock with ((rfl | ⟨s, -, rfl⟩) | ⟨e, -, rfl⟩) | hempty
  · exact ⟨rootLines.dropLast, "", "\x7d", by decide, by decide⟩
  · refine ⟨docLines s.ident s.doc ++ ("type " ++ s.ident ++ " struct \x7b") ::
      s.fields.flatMap FieldDecl.lines, "", "\x7d", by decide, ?_⟩
    rw [StructDecl.lines, List.append_assoc]
    rfl
  · refine ⟨docLines e.ident e.doc ++ ["// +kubebuilder:validation:Enum=" ++ choicesText e.values],
      "type " ++ e.ident ++ " ", e.base.name, name_mem_endings e.base, ?_⟩
    rw [EnumDecl.lines, List.append_assoc]
    rfl
  · split at hempty
    · rw [List.mem_singleton.mp hempty]
      exact ⟨[], "type Emptyobject struct\x7b", "\x7d", by decide, by decide⟩
    · cases hempty

/-- Of closed declarations, trimming takes the last blank line. -/
theorem trimmedEnd_terminated {blocks : List (List String)} (hblocks : blocks ≠ [])
    (h : ∀ block ∈ blocks, IsClosed block) :
    trimmedEnd (terminated (blocks.flatMap (· ++ [""]))) ++ "\n" =
      terminated ([""].intercalate blocks) := by
  have hendings : ∀ last ∈ endings, trimEnd (last ++ "\n\n").toList ≠ [] ∧
      trimmedEnd (last ++ "\n\n") = last := by
    decide
  obtain ⟨texts, before, last, hlast, hblock⟩ := h _ (List.getLast_mem hblocks)
  obtain ⟨hne, htrim⟩ := hendings last hlast
  let start := blocks.dropLast.flatMap (· ++ [""]) ++ texts
  have hall : blocks.flatMap (· ++ [""]) = start ++ [before ++ last] ++ [""] := by
    conv_lhs => rw [← List.dropLast_append_getLast hblocks, hblock]
    simp only [start, List.flatMap_append, List.flatMap_singleton, List.append_assoc]
  have hbetween : [""].intercalate blocks = start ++ [before ++ last] :=
    List.append_cancel_right ((flatMap_append_singleton "" hblocks).symm.trans hall)
  have htext : terminated (start ++ [before ++ last] ++ [""]) =
      terminated start ++ before ++ (last ++ "\n\n") := by
    have hblank : "\n\n" = "\n" ++ ("" ++ "\n") := rfl
    rw [terminated_append, terminated_append start, terminated_singleton, terminated_singleton,
      hblank]
    simp only [String.append_assoc]
  rw [hall, hbetween, htext, trimmedEnd_append _ hne, htrim, terminated_append start,
    terminated_singleton]
  simp only [String.append_assoc]

/-- A file is its lines with a line feed behind each. -/
theorem File.text_eq (f : File) : f.text = terminated f.lines := by
  have hbody : trimmedEnd f.bodyText ++ "\n" = terminated ([""].intercalate f.blocks) := by
    rw [f.bodyText_eq_terminated]
    exact trimmedEnd_terminated (List.cons_ne_nil _ _) f.isClosed_of_mem_blocks
  rw [File.text, File.lines, terminated_append, headText_eq, String.append_assoc, hbody]

theorem mem_intercalate_of_mem {sep t : String} {block : List String} {blocks : List (List String)}
    (hblock : block ∈ blocks) (ht : t ∈ block) : t ∈ [sep].intercalate blocks := by
  induction blocks with
  | nil => cases hblock
  | cons first blocks ih =>
      cases blocks with
      | nil =>
          rw [List.mem_singleton] at hblock
          rwa [List.intercalate_singleton, ← hblock]
      | cons next blocks =>
          rw [List.intercalate_cons_cons, List.mem_append, List.mem_append]
          rcases List.mem_cons.mp hblock with rfl | hrest
          · exact Or.inl (Or.inl ht)
          · exact Or.inr (ih hrest)

theorem mem_or_eq_of_mem_intercalate {sep t : String} {blocks : List (List String)}
    (h : t ∈ [sep].intercalate blocks) : (∃ block ∈ blocks, t ∈ block) ∨ t = sep := by
  have hblocks : blocks ≠ [] := by
    rintro rfl
    cases h
  have hmem := List.mem_append_left [sep] h
  rw [← flatMap_append_singleton sep hblocks] at hmem
  obtain ⟨block, hblock, ht⟩ := List.mem_flatMap.mp hmem
  rcases List.mem_append.mp ht with ht | hsep
  · exact Or.inl ⟨block, hblock, ht⟩
  · exact Or.inr (List.mem_singleton.mp hsep)

theorem File.mem_lines {f : File} {s : StructDecl} (hs : s ∈ f.structs) {t : String}
    (ht : t ∈ s.lines) : t ∈ f.lines := by
  refine List.mem_append_right _ (mem_intercalate_of_mem ?_ ht)
  simp only [File.blocks, List.mem_append, List.mem_cons, List.mem_map]
  exact Or.inl (Or.inl (Or.inr ⟨s, hs, rfl⟩))

theorem line_mem_lines {s : StructDecl} {field : FieldDecl} (hfield : field ∈ s.fields) :
    field.line ∈ s.lines := by
  have hown : field.line ∈ field.lines := List.mem_append_right _ (List.mem_singleton_self _)
  have hfields := List.mem_flatMap_of_mem hfield hown
  exact List.mem_append_right _ (List.mem_cons_of_mem _ (List.mem_append_left _ hfields))

/-- What holds of all other lines holds of all lines if it holds of those of the structs. -/
theorem File.forall_mem_lines {P : String → Prop} (f : File) (hblank : P "")
    (hhead : ∀ t ∈ headLines f.package f.imports, P t) (hroot : ∀ t ∈ rootLines, P t)
    (hempty : ∀ t ∈ emptyObjectLines, P t) (henums : ∀ e ∈ f.enums, ∀ t ∈ e.lines, P t) :
    (∀ t ∈ f.lines, P t) ↔ ∀ s ∈ f.structs, ∀ t ∈ s.lines, P t := by
  refine ⟨fun h s hs t ht => h t (mem_lines hs ht), fun h t ht => ?_⟩
  rcases List.mem_append.mp ht with ht | ht
  · exact hhead t ht
  · rcases mem_or_eq_of_mem_intercalate ht with ⟨block, hblock, ht⟩ | rfl
    · simp only [File.blocks, List.mem_append, List.mem_cons, List.mem_map] at hblock
      rcases hblock with ((rfl | ⟨s, hs, rfl⟩) | ⟨e, he, rfl⟩) | hflag
      · exact hroot t ht
      · exact h s hs t ht
      · exact henums e he t ht
      · split at hflag
        · exact hempty t (List.mem_singleton.mp hflag ▸ ht)
        · cases hflag
    · exact hblank

end Go

end AnnotatedValues
