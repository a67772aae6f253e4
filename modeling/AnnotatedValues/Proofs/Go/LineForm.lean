import AnnotatedValues.Proofs.Go.Default
import AnnotatedValues.Proofs.Go.Texts

/-!
# Forms of the lines of a Go file

A line of a file is blank, a comment, one of the lines around the imports, the
head of a type, a closing brace or a field.  A field line stands for a field
exactly if its words are an identifier and a type, and no text breaks its line
but a sampled default that denotes no document.
-/

namespace AnnotatedValues

open Annotation Annotation.Scan Fallible Text

namespace Go

/-! ## Identifiers and types -/

/-- A word that starts with a letter of ASCII. -/
def isIdentifier : List Char → Bool
  | [] => false
  | c :: cs => c.isAlpha && cs.all isWord

/-- The types that come from packages. -/
def qualifiedTypes : List String :=
  ["resource.Quantity", "metav1.Duration", "metav1.Time", "k8sRuntime.RawExtension"]

/-- Pointers, arrays and maps in front of an identifier or of a type that comes from a package. -/
def isType : List Char → Bool
  | '*' :: cs => isType cs
  | '[' :: ']' :: cs => isType cs
  | 'm' :: 'a' :: 'p' :: '[' :: 's' :: 't' :: 'r' :: 'i' :: 'n' :: 'g' :: ']' :: cs => isType cs
  | cs => isIdentifier cs || qualifiedTypes.contains (String.ofList cs)

/-- The key of a field in quotes, with or without the option to omit it. -/
def isTag (cs : List Char) : Bool :=
  match dropLead? "`json:\"".toList cs with
  | some rest =>
    ["\"`".toList, ",omitempty\"`".toList].contains (rest.dropWhile isMemberChar)
  | none => false

/-! ## Lines -/

def isFieldLine : List Char → Bool
  | '\t' :: cs =>
    match splitBy (· == ' ') cs with
    | [ident, type, tag] => isIdentifier ident && isType type && isTag tag
    | _ => false
  | _ => false

def isComment (cs : List Char) : Bool :=
  (dropLead? "//".toList (cs.dropWhile (· == '\t'))).isSome

/-- The lines around the imports, and those of the root type down to its closing brace. -/
def fixedLines : List String := ["import ("] ++ Package.all.map importLine ++ [")"] ++ rootLines

/-- The forms of lines that do not depend on the package. -/
def isCommonLine (cs : List Char) : Bool :=
  cs.all isBlank || isComment cs || (dropLead? "type ".toList cs).isSome || isFieldLine cs ||
    fixedLines.contains (String.ofList cs)

/-- Whether a line has one of the forms that lines of a file of a package have. -/
def isLine (package : String) (cs : List Char) : Bool :=
  isCommonLine cs || cs == ("package " ++ package).toList

variable {package : String} {cs : List Char}

theorem isLine_of_isCommonLine (h : isCommonLine cs = true) : isLine package cs = true := by
  rw [isLine, h, Bool.true_or]

theorem isCommonLine_of_isComment (h : isComment cs = true) : isCommonLine cs = true := by
  simp [isCommonLine, h]

theorem isCommonLine_of_mem_fixedLines {t : String} (h : t ∈ fixedLines) :
    isCommonLine t.toList = true := by
  rw [isCommonLine, String.ofList_toList, List.contains_iff_mem.mpr h, Bool.or_true]

/-! ## Types of fields -/

theorem exists_qualifiedType_eq_cons :
    ∀ type ∈ qualifiedTypes, ∃ c cs, type.toList = c :: cs ∧ c.isUpper = false := by
  simp only [qualifiedTypes, List.forall_mem_cons]
  exact ⟨⟨_, _, String.toList_ofList, by decide⟩, ⟨_, _, String.toList_ofList, by decide⟩,
    ⟨_, _, String.toList_ofList, by decide⟩, ⟨_, _, String.toList_ofList, by decide⟩,
    List.forall_mem_nil _⟩

/-- No identifier is written like a type that comes from a package. -/
theorem isType_of_isSpelled {ident : String} (h : Identifier.IsSpelled ident) :
    isType ident.toList = isIdentifier ident.toList := by
  obtain ⟨c, cs, hident, hc⟩ := h.letter
  have hplain : qualifiedTypes.contains (String.ofList (c :: cs)) = false := by
    refine Bool.eq_false_iff.mpr fun hmem => ?_
    obtain ⟨d, ds, htype, hd⟩ := exists_qualifiedType_eq_cons _ (List.contains_iff_mem.mp hmem)
    rw [String.toList_ofList] at htype
    cases htype
    exact absurd hc (Bool.eq_false_iff.mp hd)
  rw [hident]
  unfold isType
  split
  · rename_i hstar
    cases hstar
    cases hc
  · rename_i harray
    cases harray
    cases hc
  · rename_i hmap
    cases hmap
    cases hc
  · rw [hplain, Bool.or_false]

theorem isType_typeText {t : Resolved}
    (h : ∀ key ident, t.user? = some (key, ident) → Identifier.IsSpelled ident) :
    isType (typeText t).toList = true ↔
      ∀ key ident, t.user? = some (key, ident) → isIdentifier ident.toList = true := by
  induction t with
  | pointer inner ih =>
      have hinner := ih h
      rw [typeText, String.toList_append]
      exact hinner
  | array inner ih =>
      have hinner := ih h
      rw [typeText, String.toList_append]
      exact hinner
  | map inner ih =>
      have hinner := ih h
      rw [typeText, String.toList_append]
      exact hinner
  | enum ref | struct ref =>
      rw [typeText, isType_of_isSpelled (h _ _ rfl)]
      constructor
      · rintro hident key ident huser
        cases huser
        exact hident
      · intro hall
        exact hall _ _ rfl
  | primitive p =>
      refine iff_of_true ?_ fun key ident huser => by cases huser
      cases p <;> (rw [typeText, Primitive.name, String.toList_ofList]; decide)
  | format name =>
      refine iff_of_true ?_ fun key ident huser => by cases huser
      rw [typeText, String.toList_ofList]
      decide
  | semantic s =>
      refine iff_of_true ?_ fun key ident huser => by cases huser
      cases s <;> decide

theorem unbroken_typeText {t : Resolved}
    (h : ∀ key ident, t.user? = some (key, ident) → Identifier.IsSpelled ident) :
    Unbroken (typeText t).toList := by
  induction t with
  | pointer inner ih | array inner ih | map inner ih =>
      have hinner := ih h
      rw [typeText, String.toList_append]
      exact unbroken_append.mpr ⟨by decide, hinner⟩
  | enum ref | struct ref => exact (h _ _ rfl).unbroken
  | primitive p => cases p <;> (rw [typeText, Primitive.name, String.toList_ofList]; decide)
  | format name =>
      rw [typeText, String.toList_ofList]
      decide
  | semantic s => cases s <;> decide

/-! ## Lines of fields -/

theorem FieldDecl.toList_tag (f : FieldDecl) : f.tag.toList = "`json:\"".toList ++ (f.key.toList ++
    if f.mayBeOmitted then ",omitempty\"`".toList else "\"`".toList) := by
  rw [FieldDecl.tag]
  simp only [String.toList_append, List.append_assoc]
  cases f.mayBeOmitted with
  | true => rfl
  | false => rfl

theorem FieldDecl.isTag_tag {f : FieldDecl} (hf : f.SingleLine) : isTag f.tag.toList = true := by
  rw [isTag, f.toList_tag, dropLead?_append]
  dsimp only
  rw [List.dropWhile_append_of_pos hf.key]
  cases f.mayBeOmitted <;> decide

theorem FieldDecl.unbroken_tag {f : FieldDecl} (hf : f.SingleLine) : Unbroken f.tag.toList := by
  rw [f.toList_tag]
  refine unbroken_append.mpr ⟨by decide, unbroken_append.mpr ⟨hf.key.unbroken, ?_⟩⟩
  cases f.mayBeOmitted <;> decide

theorem FieldDecl.toList_line (f : FieldDecl) : f.line.toList =
    '\t' :: (f.ident.toList ++ ' ' :: ((typeText f.type).toList ++ ' ' :: f.tag.toList)) := by
  rw [FieldDecl.line]
  simp only [String.toList_append, List.append_assoc]
  rfl

theorem FieldDecl.newline_not_mem_line {f : FieldDecl} (hf : f.SingleLine) :
    '\n' ∉ f.line.toList := by
  have hident := hf.ident.unbroken.newline_not_mem
  have htype := (unbroken_typeText hf.user).newline_not_mem
  have htag := (f.unbroken_tag hf).newline_not_mem
  rw [f.toList_line]
  simp [hident, htype, htag]

theorem splitBy_space {word : List Char} (h : Unbroken word) : splitBy (· == ' ') word = [word] :=
  splitBy_eq_singleton fun _ hc => beq_eq_false_iff_ne.mpr fun heq =>
    h.not_mem (by decide) (heq ▸ hc)

theorem FieldDecl.words {f : FieldDecl} (hf : f.SingleLine) :
    splitBy (· == ' ') (f.ident.toList ++ ' ' :: ((typeText f.type).toList ++ ' ' :: f.tag.toList)) =
      [f.ident.toList, (typeText f.type).toList, f.tag.toList] := by
  rw [splitBy_append rfl, splitBy_append rfl, splitBy_space hf.ident.unbroken,
    splitBy_space (unbroken_typeText hf.user), splitBy_space (f.unbroken_tag hf)]
  rfl

theorem FieldDecl.isFieldLine_line {f : FieldDecl} (hf : f.SingleLine) :
    isFieldLine f.line.toList =
      (isIdentifier f.ident.toList && isType (typeText f.type).toList) := by
  rw [f.toList_line, isFieldLine, f.words hf]
  dsimp only
  rw [f.isTag_tag hf, Bool.and_true]

theorem isBlank_of_isUpper {c : Char} (h : c.isUpper = true) : isBlank c = false := by
  unfold Char.isUpper at h
  rw [decide_eq_true_eq] at h
  have hlow : 65 ≤ c.toNat := UInt32.le_iff_toNat_le.mp h.1
  have hhigh : c.toNat ≤ 90 := UInt32.le_iff_toNat_le.mp h.2
  simp only [isBlank, Bool.or_eq_false_iff, Bool.and_eq_false_iff, decide_eq_false_iff_not,
    beq_eq_false_iff_ne]
  omega

theorem toList_importLine (package : Package) : (importLine package).toList =
    '\t' :: (package.name.toList ++ (" \"".toList ++ (package.path.toList ++ "\"".toList))) := by
  unfold importLine
  simp only [String.toList_append, List.append_assoc]
  rfl

theorem exists_name_eq_cons (package : Package) :
    ∃ c cs, package.name.toList = c :: cs ∧ c.isUpper = false := by
  cases package with
  | resource => exact ⟨_, _, String.toList_ofList, by decide⟩
  | metav1 => exact ⟨_, _, String.toList_ofList, by decide⟩
  | runtime => exact ⟨_, _, String.toList_ofList, by decide⟩

/-- Of the fixed lines, only a field line has a capital behind a tab. -/
theorem isFieldLine_of_mem_fixedLines {c : Char} (hc : c.isUpper = true) {rest : List Char}
    {t : String} (ht : t ∈ fixedLines) (h : t.toList = '\t' :: c :: rest) :
    isFieldLine t.toList = true := by
  simp only [fixedLines, rootLines, List.mem_append, List.mem_map, List.mem_cons,
    List.not_mem_nil, or_false] at ht
  rcases ht with ((rfl | ⟨p, -, rfl⟩) | rfl) | rfl | rfl | rfl | rfl | rfl | rfl
  · rw [String.toList_ofList] at h
    cases h
  · obtain ⟨d, ds, hname, hd⟩ := exists_name_eq_cons p
    rw [toList_importLine, hname] at h
    cases h
    exact absurd hc (Bool.eq_false_iff.mp hd)
  · rw [String.toList_ofList] at h
    cases h
  · rw [String.toList_ofList] at h
    cases h
  · rw [String.toList_ofList] at h
    cases h
    cases hc
  · rw [String.toList_ofList] at h
    cases h
    cases hc
  · rw [String.toList_ofList] at h
    cases h
  · rw [String.toList_ofList]
    decide
  · rw [String.toList_ofList] at h
    cases h

/-- A line with a capital behind a tab is a field line, if it is a line at all. -/
theorem isLine_of_isUpper {c : Char} (hc : c.isUpper = true) (rest : List Char) :
    isLine package ('\t' :: c :: rest) = isFieldLine ('\t' :: c :: rest) := by
  have hblank : ('\t' :: c :: rest).all isBlank = false := by
    simp [isBlank_of_isUpper hc]
  have hcomment : isComment ('\t' :: c :: rest) = false := by
    have htab : c ≠ '\t' := by
      rintro rfl
      cases hc
    have hslash : '/' ≠ c := by
      rintro rfl
      cases hc
    simp [isComment, htab, hslash, dropLead?]
  have htype : (dropLead? "type ".toList ('\t' :: c :: rest)).isSome = false := rfl
  have hpackage : ('\t' :: c :: rest == ("package " ++ package).toList) = false := by simp
  rw [isLine, isCommonLine, hblank, hcomment, htype, hpackage, Bool.false_or, Bool.false_or,
    Bool.false_or, Bool.or_false]
  cases hmem : fixedLines.contains (String.ofList ('\t' :: c :: rest)) with
  | true =>
      have hfield := isFieldLine_of_mem_fixedLines hc (List.contains_iff_mem.mp hmem)
        String.toList_ofList
      rw [String.toList_ofList] at hfield
      rw [hfield, Bool.true_or]
  | false => exact Bool.or_false _

theorem FieldDecl.isLine_line {f : FieldDecl} (hf : f.SingleLine) :
    isLine package f.line.toList = isFieldLine f.line.toList := by
  obtain ⟨c, cs, hident, hc⟩ := hf.ident.letter
  rw [f.toList_line, hident]
  exact isLine_of_isUpper hc _

/-! ## Texts on a single line -/

/-- A text on a single line, of a form that it has in any package. -/
structure IsPlain (t : String) : Prop where
  single : '\n' ∉ t.toList
  common : isCommonLine t.toList = true

theorem isPlain_ofList {cs : List Char} (hsingle : '\n' ∉ cs) (hcommon : isCommonLine cs = true) :
    IsPlain (String.ofList cs) :=
  ⟨newline_not_mem_ofList hsingle, by rwa [String.toList_ofList]⟩

theorem isPlain_comment {s : String} (h : '\n' ∉ s.toList) : IsPlain ("\t// " ++ s) := by
  constructor
  · rw [String.toList_append, List.mem_append, not_or]
    exact ⟨newline_not_mem_ofList (by decide), h⟩
  · rw [String.toList_append]
    exact isCommonLine_of_isComment rfl

theorem toList_markerLine (name value : String) : (markerLine name value).toList =
    "\t// +kubebuilder:".toList ++ (name.toList ++ value.toList) := by
  unfold markerLine
  simp only [String.toList_append, List.append_assoc]

theorem isPlain_markerLine {name value : String} (hname : '\n' ∉ name.toList)
    (hvalue : '\n' ∉ value.toList) : IsPlain (markerLine name value) := by
  have hlead : '\n' ∉ "\t// +kubebuilder:".toList := newline_not_mem_ofList (by decide)
  constructor
  · rw [toList_markerLine, List.mem_append, List.mem_append, not_or, not_or]
    exact ⟨hlead, hname, hvalue⟩
  · rw [toList_markerLine]
    exact isCommonLine_of_isComment rfl

theorem isPlain_of_mem_docLines {ident doc : String} (hident : '\n' ∉ ident.toList)
    (hdoc : '\n' ∉ doc.toList) : ∀ t ∈ docLines ident doc, IsPlain t := by
  unfold docLines
  split
  · exact List.forall_mem_nil _
  · refine List.forall_mem_singleton.mpr ⟨?_, ?_⟩
    · simp only [String.toList_append, List.mem_append, not_or]
      exact ⟨⟨⟨newline_not_mem_ofList (by decide), hident⟩,
        newline_not_mem_ofList (by decide)⟩, hdoc⟩
    · simp only [String.toList_append]
      exact isCommonLine_of_isComment rfl

theorem isPlain_typeLine {ident definition : String} (hident : '\n' ∉ ident.toList)
    (hdefinition : '\n' ∉ definition.toList) : IsPlain ("type " ++ ident ++ definition) := by
  constructor
  · simp only [String.toList_append, List.mem_append, not_or]
    exact ⟨⟨newline_not_mem_ofList (by decide), hident⟩, hdefinition⟩
  · have hlead : (dropLead? "type ".toList
        ("type ".toList ++ (ident.toList ++ definition.toList))).isSome = true := by
      rw [dropLead?_append]
      rfl
    simp only [String.toList_append, List.append_assoc]
    rw [isCommonLine, hlead, Bool.or_true, Bool.true_or, Bool.true_or]

theorem FieldDecl.isPlain_of_mem {f : FieldDecl} (hf : f.SingleLine) :
    ∀ t ∈ f.commentLines ++ f.formatLines ++ f.choiceLines, IsPlain t := by
  have hformats : ∀ name ∈ Builtin.stringFormats, '\n' ∉ name.toList := by decide
  refine List.forall_mem_append.mpr ⟨List.forall_mem_append.mpr ⟨?_, ?_⟩, ?_⟩
  · unfold FieldDecl.commentLines
    split
    · exact List.forall_mem_nil _
    · exact List.forall_mem_singleton.mpr (isPlain_comment hf.member.comment)
  · intro t ht
    obtain ⟨name, hname, rfl⟩ := List.mem_map.mp ht
    exact isPlain_markerLine (newline_not_mem_ofList (by decide))
      (hformats name (hf.format name (Option.mem_toList.mp hname)))
  · unfold FieldDecl.choiceLines
    split
    · exact List.forall_mem_nil _
    · exact List.forall_mem_singleton.mpr
        (isPlain_markerLine (newline_not_mem_ofList (by decide)) (newline_not_mem_choicesText _))

/-! ## Texts all of whose lines are lines of a file -/

def IsFormed (package t : String) : Prop :=
  ∀ line ∈ Text.lines t.toList, isLine package line = true

theorem isFormed_iff {t : String} (h : '\n' ∉ t.toList) :
    IsFormed package t ↔ isLine package t.toList = true := by
  rw [IsFormed, lines_eq_singleton h, List.forall_mem_singleton]

theorem IsPlain.isFormed {t : String} (h : IsPlain t) : IsFormed package t :=
  (isFormed_iff h.single).mpr (isLine_of_isCommonLine h.common)

/-! ## Defaults -/

/-- The lines of the default behind its first. -/
def FieldDecl.spilled (f : FieldDecl) : List (List Char) :=
  f.default?.toList.flatMap fun value => (Text.lines (defaultText value).toList).tail

/-- Whether the default is a sampled text with a line feed that denotes no document. -/
def FieldDecl.Spills (f : FieldDecl) : Prop :=
  ∃ d, f.member.default? = some d ∧ d.source = .sampled ∧
    DefaultValue.ofText? d.text f.type = some (.raw d.text) ∧ '\n' ∈ d.text.toList

theorem eq_text_of_ofText?_eq_raw {text other : String} {type : Resolved}
    (h : DefaultValue.ofText? text type = some (.raw other)) : other = text := by
  unfold DefaultValue.ofText? at h
  split at h
  · cases h
  · split at h
    · cases h
    · split at h
      · cases h
      · cases h
      · cases h
        rfl

/-- Only a sampled default breaks its line. -/
theorem FieldDecl.spills_of_newline_mem {f : FieldDecl} (hf : f.SingleLine) {t : String}
    (ht : t ∈ f.defaultLines) (h : '\n' ∈ t.toList) : f.Spills := by
  obtain ⟨value, hvalue, rfl⟩ := List.mem_map.mp ht
  obtain ⟨d, hd, hvalue⟩ := Option.bind_eq_some_iff.mp (Option.mem_toList.mp hvalue)
  have hlead : '\n' ∉ "\t// +kubebuilder:".toList ++ "default:=".toList := by decide
  rw [toList_markerLine, ← List.append_assoc] at h
  have hbroken := (List.mem_append.mp h).resolve_left hlead
  obtain ⟨text, rfl, hmem⟩ := eq_raw_of_newline_mem hbroken
  obtain rfl := eq_text_of_ofText?_eq_raw hvalue
  refine ⟨d, hd, ?_, hvalue, hmem⟩
  cases hsource : d.source with
  | annotated => exact absurd hmem (hf.member.default d hd hsource)
  | sampled => rfl

theorem FieldDecl.lines_marker {f : FieldDecl} {value : DefaultValue}
    (h : f.default? = some value) :
    ∃ first, Text.lines (markerLine "default:=" (defaultText value)).toList =
      ("\t// +kubebuilder:".toList ++ first) :: f.spilled := by
  have hlead : '\n' ∉ "\t// +kubebuilder:".toList ++ "default:=".toList := by decide
  obtain ⟨first, rest, hvalue, hmarker⟩ := exists_lines_append hlead (defaultText value).toList
  refine ⟨"default:=".toList ++ first, ?_⟩
  rw [toList_markerLine, ← List.append_assoc, hmarker, FieldDecl.spilled, h, Option.toList_some,
    List.flatMap_singleton, hvalue, List.tail_cons, List.append_assoc]

theorem FieldDecl.isFormed_defaultLines (f : FieldDecl) :
    (∀ t ∈ f.defaultLines, IsFormed package t) ↔
      ∀ line ∈ f.spilled, isLine package line = true := by
  cases hdefault : f.default? with
  | none =>
      rw [FieldDecl.defaultLines, FieldDecl.spilled, hdefault]
      exact iff_of_true (List.forall_mem_nil _) (List.forall_mem_nil _)
  | some value =>
      obtain ⟨first, hlines⟩ := f.lines_marker hdefault
      have hfirst : isLine package ("\t// +kubebuilder:".toList ++ first) = true :=
        isLine_of_isCommonLine (isCommonLine_of_isComment rfl)
      rw [FieldDecl.defaultLines, hdefault, Option.toList_some, List.map_singleton,
        List.forall_mem_singleton, IsFormed, hlines, List.forall_mem_cons]
      exact and_iff_right hfirst

/-! ## Lines of a file -/

theorem FieldDecl.isFormed_lines {f : FieldDecl} (hf : f.SingleLine) :
    (∀ t ∈ f.lines, IsFormed package t) ↔ isIdentifier f.ident.toList = true ∧
      (∀ key ident, f.type.user? = some (key, ident) → isIdentifier ident.toList = true) ∧
        ∀ line ∈ f.spilled, isLine package line = true := by
  have hplain : ∀ t ∈ f.commentLines ++ f.formatLines ++ f.choiceLines, IsFormed package t :=
    fun t ht => (f.isPlain_of_mem hf t ht).isFormed
  have hline : IsFormed package f.line ↔ isIdentifier f.ident.toList = true ∧
      ∀ key ident, f.type.user? = some (key, ident) → isIdentifier ident.toList = true := by
    rw [isFormed_iff (f.newline_not_mem_line hf), f.isLine_line hf, f.isFieldLine_line hf,
      Bool.and_eq_true, isType_typeText hf.user]
  rw [FieldDecl.lines, List.forall_mem_append, List.forall_mem_append, List.forall_mem_singleton,
    f.isFormed_defaultLines, hline, and_iff_right hplain, and_comm, and_assoc]

theorem FieldDecl.spills_of_mem_lines {f : FieldDecl} (hf : f.SingleLine) {t : String}
    (ht : t ∈ f.lines) (h : '\n' ∈ t.toList) : t ∈ f.defaultLines ∧ f.Spills := by
  rw [FieldDecl.lines, List.mem_append, List.mem_append, List.mem_singleton] at ht
  rcases ht with (hplain | hdefault) | rfl
  · exact absurd h (f.isPlain_of_mem hf t hplain).single
  · exact ⟨hdefault, f.spills_of_newline_mem hf hdefault h⟩
  · exact absurd h (f.newline_not_mem_line hf)

/-! ### Lines that all files share -/

theorem isPlain_of_mem_headComments : ∀ t ∈ headComments, IsPlain t := by
  have hblank : IsPlain "" := isPlain_ofList (by decide) (by decide)
  simp only [headComments, List.forall_mem_cons]
  exact ⟨isPlain_ofList (by decide) (by decide), isPlain_ofList (by decide) (by decide),
    isPlain_ofList (by decide) (by decide), hblank, isPlain_ofList (by decide) (by decide), hblank,
    isPlain_ofList (by decide) (by decide), List.forall_mem_nil _⟩

theorem newline_not_mem_importLine (package : Package) : '\n' ∉ (importLine package).toList := by
  have hname : '\n' ∉ package.name.toList := by
    cases package <;> exact newline_not_mem_ofList (by decide)
  have hpath : '\n' ∉ package.path.toList := by
    cases package <;> exact newline_not_mem_ofList (by decide)
  rw [toList_importLine]
  simp [hname, hpath]

theorem isPlain_of_mem_fixedLines : ∀ t ∈ fixedLines, IsPlain t := by
  have hsingle : ∀ t ∈ fixedLines, '\n' ∉ t.toList := by
    simp only [fixedLines, rootLines, List.forall_mem_append, List.forall_mem_cons,
      List.forall_mem_map]
    exact ⟨⟨⟨⟨newline_not_mem_ofList (by decide), List.forall_mem_nil _⟩,
      fun p _ => newline_not_mem_importLine p⟩,
      newline_not_mem_ofList (by decide), List.forall_mem_nil _⟩,
      newline_not_mem_ofList (by decide), newline_not_mem_ofList (by decide),
      newline_not_mem_ofList (by decide), newline_not_mem_ofList (by decide),
      newline_not_mem_ofList (by decide), newline_not_mem_ofList (by decide),
      List.forall_mem_nil _⟩
  exact fun t ht => ⟨hsingle t ht, isCommonLine_of_mem_fixedLines ht⟩

theorem isPlain_of_mem_headLines {imports : List Package} {t : String}
    (ht : t ∈ headLines package imports) : t = "package " ++ package ∨ IsPlain t := by
  simp only [headLines, List.mem_append, List.mem_cons, List.mem_map, List.not_mem_nil,
    or_false] at ht
  have hall : ∀ p : Package, p ∈ Package.all := by
    intro p
    cases p <;> decide
  have himport : ∀ p, importLine p ∈ fixedLines := by
    intro p
    simp only [fixedLines, List.mem_append, List.mem_map]
    exact Or.inl (Or.inl (Or.inr ⟨p, hall p, rfl⟩))
  rcases ht with ((hcomment | rfl | rfl | rfl) | ⟨p, -, rfl⟩) | rfl | rfl
  · exact Or.inr (isPlain_of_mem_headComments t hcomment)
  · exact Or.inl rfl
  · exact Or.inr (isPlain_of_mem_fixedLines _ (by simp [fixedLines, rootLines]))
  · exact Or.inr (isPlain_of_mem_fixedLines _ (by simp [fixedLines, rootLines]))
  · exact Or.inr (isPlain_of_mem_fixedLines _ (himport p))
  · exact Or.inr (isPlain_of_mem_fixedLines _ (by simp [fixedLines, rootLines]))
  · exact Or.inr (isPlain_of_mem_fixedLines _ (by simp [fixedLines, rootLines]))

theorem EnumDecl.isPlain_of_mem_lines {e : EnumDecl} (he : e.SingleLine) :
    ∀ t ∈ e.lines, IsPlain t := by
  refine List.forall_mem_append.mpr ⟨isPlain_of_mem_docLines he.ident he.doc, ?_⟩
  refine List.forall_mem_cons.mpr ⟨⟨?_, ?_⟩, List.forall_mem_singleton.mpr ?_⟩
  · rw [String.toList_append, List.mem_append, not_or]
    exact ⟨by decide, newline_not_mem_choicesText _⟩
  · rw [String.toList_append]
    exact isCommonLine_of_isComment rfl
  · rw [String.append_assoc]
    refine isPlain_typeLine he.ident ?_
    cases e.base <;> decide

/-- What holds of plain lines and of that of the package holds of all lines of a file if it holds of
those of the fields. -/
theorem File.forall_mem_lines_iff {P : String → Prop} {f : File} (hf : f.SingleLine)
    (hplain : ∀ t, IsPlain t → P t) (hpackage : P ("package " ++ f.package)) :
    (∀ t ∈ f.lines, P t) ↔ ∀ s ∈ f.structs, ∀ field ∈ s.fields, ∀ t ∈ field.lines, P t := by
  have hfixed : ∀ t ∈ fixedLines, P t := fun t ht => hplain t (isPlain_of_mem_fixedLines t ht)
  have hblank : P "" := hfixed _ (by simp [fixedLines, rootLines])
  have hroot : ∀ t ∈ rootLines, P t := fun t ht => hfixed t (List.mem_append_right _ ht)
  have hempty : ∀ t ∈ emptyObjectLines, P t :=
    List.forall_mem_singleton.mpr (hplain _ (isPlain_ofList (by decide) (by decide)))
  have henums : ∀ e ∈ f.enums, ∀ t ∈ e.lines, P t := fun e he t ht =>
    hplain t (e.isPlain_of_mem_lines (hf.enums e he) t ht)
  have hhead : ∀ t ∈ headLines f.package f.imports, P t := by
    intro t ht
    rcases isPlain_of_mem_headLines ht with rfl | h
    · exact hpackage
    · exact hplain t h
  rw [f.forall_mem_lines hblank hhead hroot hempty henums]
  refine forall₂_congr fun s hs => ?_
  have hdoc : ∀ t ∈ docLines s.ident s.doc, P t := fun t ht =>
    hplain t (isPlain_of_mem_docLines (hf.structs s hs).ident (hf.structs s hs).doc t ht)
  have hopen : P ("type " ++ s.ident ++ " struct \x7b") :=
    hplain _ (isPlain_typeLine (hf.structs s hs).ident (by decide))
  have hclose : P "\x7d" := hfixed _ (by simp [fixedLines, rootLines])
  rw [StructDecl.lines, List.forall_mem_append, List.forall_mem_cons, List.forall_mem_append,
    List.forall_mem_singleton, and_iff_right hdoc, and_iff_right hopen, and_iff_left hclose,
    List.forall_mem_flatMap]

theorem newline_not_mem_packageLine (h : '\n' ∉ package.toList) :
    '\n' ∉ ("package " ++ package).toList := by
  rw [String.toList_append, List.mem_append, not_or]
  exact ⟨by decide, h⟩

theorem isFormed_packageLine (h : '\n' ∉ package.toList) :
    IsFormed package ("package " ++ package) := by
  rw [isFormed_iff (newline_not_mem_packageLine h), isLine, beq_self_eq_true, Bool.or_true]

/-- The lines of a file are those of its texts, and an empty one. -/
theorem File.forall_mem_text_lines (f : File) :
    (∀ line ∈ Text.lines f.text.toList, isLine package line = true) ↔
      ∀ t ∈ f.lines, IsFormed package t := by
  have hempty : isLine package [] = true := isLine_of_isCommonLine (by decide)
  rw [f.text_eq, lines_terminated, List.forall_mem_append, List.forall_mem_singleton,
    and_iff_left hempty, List.forall_mem_flatMap]
  rfl

/-- The lines of a default behind its first are lines of the file. -/
theorem File.spilled_subset_lines {f : File} {s : StructDecl} (hs : s ∈ f.structs)
    {field : FieldDecl} (hfield : field ∈ s.fields) :
    field.spilled ⊆ Text.lines f.text.toList := by
  intro line hline
  obtain ⟨value, hvalue, -⟩ := List.mem_flatMap.mp hline
  obtain ⟨first, hlines⟩ := field.lines_marker (Option.mem_toList.mp hvalue)
  let marker := markerLine "default:=" (defaultText value)
  have hdefault : marker ∈ field.defaultLines := List.mem_map.mpr ⟨value, hvalue, rfl⟩
  have hown : marker ∈ field.lines :=
    List.mem_append_left _ (List.mem_append_right _ hdefault)
  have hstruct : marker ∈ s.lines :=
    List.mem_append_right _ (List.mem_cons_of_mem _ (List.mem_append_left _
      (List.mem_flatMap.mpr ⟨field, hfield, hown⟩)))
  rw [f.text_eq, lines_terminated]
  refine List.mem_append_left _ (List.mem_flatMap.mpr ⟨marker, mem_lines hs hstruct, ?_⟩)
  rw [hlines]
  exact List.mem_cons_of_mem _ hline

end Go

namespace ValuesFile

/-- A values file that is read has a Go file.  All of its lines have one of the forms that lines
have exactly if its fields and their types are called by identifiers and the lines of a default
behind its first are lines of a file too.  No other text has more than one line, and such a default
is a sample that denotes no document. -/
theorem isLine_declarations_iff {source text : String} {f : ValuesFile}
    (h : ofText source text = .ok f) {package : String} (hpackage : '\n' ∉ package.toList) :
    ∃ file, Go.file f.resolver package = .ok file ∧ f.declarations package = .ok file.text ∧
      ((∀ line ∈ Text.lines file.text.toList, Go.isLine package line = true) ↔
        ∀ s ∈ file.structs, ∀ field ∈ s.fields, Go.isIdentifier field.ident.toList = true ∧
          (∀ key ident, field.type.user? = some (key, ident) →
            Go.isIdentifier ident.toList = true) ∧
          ∀ line ∈ field.spilled, Go.isLine package line = true) ∧
      file.text = Go.terminated file.lines ∧
      ∀ t ∈ file.lines, '\n' ∈ t.toList → ∃ s ∈ file.structs, ∃ field ∈ s.fields,
        t ∈ field.defaultLines ∧ field.Spills := by
  obtain ⟨g, hg, hresolver, -⟩ := exists_built_of_ofText h
  obtain ⟨file, hfile⟩ := Go.exists_file (complete_of_ofText h) package
  have hsource : file.package = package := by
    obtain ⟨_, _, -, -, rfl⟩ := Go.file_eq_ok_iff.mp hfile
    rfl
  have hline : file.SingleLine := by
    have hgraph := singleLine_graph h
    rw [hresolver] at hfile hgraph
    exact Go.singleLine_file hg.wellFormed hgraph hfile
  refine ⟨file, hfile, ?_, ?_, file.text_eq, ?_⟩
  · rw [declarations, Go.declarations, hfile]
    rfl
  · have hown : Go.IsFormed package ("package " ++ file.package) := by
      rw [hsource]
      exact Go.isFormed_packageLine hpackage
    rw [file.forall_mem_text_lines, Go.File.forall_mem_lines_iff hline
      (fun t ht => ht.isFormed) hown]
    refine forall₂_congr fun s hs => forall₂_congr fun field hfield => ?_
    exact field.isFormed_lines ((hline.structs s hs).fields field hfield)
  · refine (Go.File.forall_mem_lines_iff hline (fun t ht hmem => absurd hmem ht.single)
      (fun hmem => absurd hmem ?_)).mpr ?_
    · rw [hsource]
      exact Go.newline_not_mem_packageLine hpackage
    · intro s hs field hfield t ht hmem
      exact ⟨s, hs, field, hfield,
        field.spills_of_mem_lines ((hline.structs s hs).fields field hfield) ht hmem⟩

example : Go.isLine "values" "\tSize map[string]*Unit `json:\"size,omitempty\"`".toList = true := by
  decide +kernel

/-- An array of a struct, with a default. -/
def describedArray : String :=
  "## @field \x7b*int\x7d Size.x in pixels\n" ++
    "## @param \x7b[]Size\x7d size=[\x7bx: 3\x7d] to print\n"

theorem plain_describedArray :
    ((ofText "values.yaml" describedArray).toOption.bind fun f =>
      (Go.file f.resolver "values").toOption.map fun file =>
        file.structs.all fun s => s.fields.all fun field =>
          Go.isIdentifier field.ident.toList &&
            (field.type.user?.all fun user => Go.isIdentifier user.2.toList) &&
              field.spilled.isEmpty) = some true := by
  have hchars : describedArray.toList = _ :=
    toList_append_eq String.toList_ofList String.toList_ofList
  simp only [ofText, Document.ofText, hchars]
  decide +kernel

/-- All of its lines have such a form. -/
theorem isLine_describedArray :
    ∃ f file, ofText "values.yaml" describedArray = .ok f ∧
      Go.file f.resolver "values" = .ok file ∧
        ∀ line ∈ Text.lines file.text.toList, Go.isLine "values" line = true := by
  obtain ⟨f, hf, hplain⟩ := bind_toOption_eq_some_iff.mp plain_describedArray
  obtain ⟨file, hfile, hplain⟩ := map_toOption_eq_some_iff.mp hplain
  have hpackage : '\n' ∉ "values".toList := by decide
  obtain ⟨file', hfile', -, hlines, -⟩ := isLine_declarations_iff hf hpackage
  rw [hfile] at hfile'
  cases hfile'
  refine ⟨f, file, hf, hfile, hlines.mpr fun s hs field hfield => ?_⟩
  have hall := List.all_eq_true.mp (List.all_eq_true.mp hplain s hs) field hfield
  rw [Bool.and_eq_true, Bool.and_eq_true] at hall
  obtain ⟨⟨hident, huser⟩, hspilled⟩ := hall
  refine ⟨hident, fun key ident hkey => ?_, ?_⟩
  · rwa [hkey] at huser
  · rw [List.isEmpty_iff.mp hspilled]
    exact List.forall_mem_nil _

/-- A sample that YAML reads as a string, and that is not YAML itself. -/
def spilledSample : String := "## @param \x7bint\x7d n\nn: \"[\\nspill\"\n"

theorem spilled_spilledSample :
    ((ofText "values.yaml" spilledSample).toOption.bind fun f =>
      (Go.file f.resolver "values").toOption.map fun file =>
        (f.validate.toOption, file.structs.any fun s => s.fields.any fun field =>
          field.spilled.contains "spill".toList)) =
      some (some (), true) := by
  decide +kernel

/-- It is valid, and its second line becomes a line of the file that has no such form. -/
theorem not_isLine_spilledSample :
    ∃ (f : ValuesFile) (file : Go.File), ofText "values.yaml" spilledSample = .ok f ∧
      f.validate = .ok () ∧ f.declarations "values" = .ok file.text ∧
        "spill".toList ∈ Text.lines file.text.toList ∧
          Go.isLine "values" "spill".toList = false := by
  obtain ⟨f, hf, hspilled⟩ := bind_toOption_eq_some_iff.mp spilled_spilledSample
  obtain ⟨file, hfile, hspilled⟩ := map_toOption_eq_some_iff.mp hspilled
  obtain ⟨hvalid, hspilled⟩ := Prod.mk.inj hspilled
  obtain ⟨s, hs, hspilled⟩ := List.any_eq_true.mp hspilled
  obtain ⟨field, hfield, hspilled⟩ := List.any_eq_true.mp hspilled
  have hline := Go.File.spilled_subset_lines hs hfield (List.contains_iff_mem.mp hspilled)
  have hform : Go.isLine "values" "spill".toList = false := by decide
  refine ⟨f, file, hf, toOption_eq_some_iff.mp hvalid, ?_, hline, hform⟩
  rw [declarations, Go.declarations, hfile]
  rfl

end ValuesFile

end AnnotatedValues
