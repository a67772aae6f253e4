import AnnotatedValues.Proofs.Go.Lines

/-!
# Files in one pass

A file can be written in one pass over its declarations.  The packages of field
types are noted while the types are written, so the head of the file, which
imports them, is put in front at the end.  What is noted at any point is what the
field types up to there use, hence the pass writes the file that the declarations
as a whole describe.
-/

namespace AnnotatedValues.Go

/-- What has been written of the body, and what it needs from the rest of the file. -/
structure Writer where
  imports : List Package
  needsEmptyObject : Bool
  body : String

namespace Writer

/-- The root type needs its package. -/
def start : Writer := ⟨[.metav1], false, rootText⟩

def write (w : Writer) (text : String) : Writer := { w with body := w.body ++ text }

/-- The text of a type, with its package or the struct without fields noted. -/
def typeText (w : Writer) : Resolved → String × Writer
  | .primitive p => (p.name, w)
  | .format _ => ("string", w)
  | .semantic s =>
    match qualified? s with
    | some (package, name) =>
      (package.name ++ "." ++ name, { w with imports := w.imports ++ [package] })
    | none => (Identifier.emptyObject, { w with needsEmptyObject := true })
  | .pointer inner => let (text, w) := w.typeText inner; ("*" ++ text, w)
  | .array inner => let (text, w) := w.typeText inner; ("[]" ++ text, w)
  | .map inner => let (text, w) := w.typeText inner; ("map[string]" ++ text, w)
  | .enum ref => (ref.ident, w)
  | .struct ref => (ref.ident, w)

def field (w : Writer) (f : FieldDecl) : Writer :=
  let (text, w) := w.typeText f.type
  let markers := f.commentLines ++ f.formatLines ++ f.choiceLines ++ f.defaultLines
  (w.write (terminated markers)).write ("\t" ++ f.ident ++ " " ++ text ++ " " ++ f.tag ++ "\n")

def struct (w : Writer) (s : StructDecl) : Writer :=
  let w := w.write (docText s.ident s.doc ++ "type " ++ s.ident ++ " struct \x7b\n")
  (s.fields.foldl field w).write "\x7d\n\n"

def enum (w : Writer) (e : EnumDecl) : Writer := w.write e.text

/-- All declarations, the struct without fields last if it is needed. -/
def declarations (f : File) : Writer :=
  let w := f.enums.foldl enum (f.structs.foldl struct start)
  if w.needsEmptyObject then w.write emptyObjectText else w

/-- The file, with its packages in the order of their paths. -/
def text (w : Writer) (package : String) : String :=
  headText package (Package.all.filter w.imports.contains) ++ trimmedEnd w.body ++ "\n"

/-! ## What has been written -/

/-- The text has been written, with fields of these types in it. -/
structure Wrote (w : Writer) (types : List Resolved) (text : String) : Prop where
  body : w.body = text
  mem_imports : ∀ {p}, p ∈ w.imports ↔ p = .metav1 ∨ ∃ t ∈ types, uses p t = true
  needsEmptyObject : w.needsEmptyObject = types.any usesEmptyObject

variable {w : Writer} {types : List Resolved} {written : String}

theorem wrote_start : Wrote start [] rootText where
  body := rfl
  mem_imports := by simp [start]
  needsEmptyObject := rfl

theorem Wrote.write (h : Wrote w types written) (more : String) :
    Wrote (w.write more) types (written ++ more) where
  body := congrArg (· ++ more) h.body
  mem_imports := h.mem_imports
  needsEmptyObject := h.needsEmptyObject

/-- The package or the struct without fields that a type uses is noted. -/
def noting (w : Writer) (t : Resolved) : Writer :=
  { w with
    imports := w.imports ++ (((semantic? t).bind qualified?).map Prod.fst).toList
    needsEmptyObject := w.needsEmptyObject || usesEmptyObject t }

theorem noting_eq_self {t : Resolved} (h : semantic? t = none) : w.noting t = w := by
  simp [noting, usesEmptyObject, h]

/-- Nothing is noted but what stands inside all pointers, arrays and maps. -/
theorem typeText_eq (w : Writer) (t : Resolved) :
    w.typeText t = (Go.typeText t, w.noting t) := by
  induction t with
  | pointer inner ih => rw [typeText, ih]; rfl
  | array inner ih => rw [typeText, ih]; rfl
  | map inner ih => rw [typeText, ih]; rfl
  | semantic s =>
      cases s <;>
        simp [typeText, Go.typeText, noting, semantic?, usesEmptyObject, qualified?]
  | primitive p => rw [noting_eq_self rfl]; rfl
  | format name => rw [noting_eq_self rfl]; rfl
  | enum ref => rw [noting_eq_self rfl]; rfl
  | struct ref => rw [noting_eq_self rfl]; rfl

theorem mem_imports_noting {t : Resolved} {p : Package} :
    p ∈ (w.noting t).imports ↔ p ∈ w.imports ∨ uses p t = true := by
  have huses : p ∈ (((semantic? t).bind qualified?).map Prod.fst).toList ↔ uses p t = true := by
    unfold uses
    cases (semantic? t).bind qualified? with
    | none => exact iff_of_false List.not_mem_nil Bool.false_ne_true
    | some q =>
        change p ∈ [q.1] ↔ (q.1 == p) = true
        rw [List.mem_singleton, beq_iff_eq, eq_comm]
  rw [noting, List.mem_append, huses]

theorem Wrote.noting (h : Wrote w types written) (t : Resolved) :
    Wrote (w.noting t) (types ++ [t]) written where
  body := h.body
  mem_imports := by
    intro p
    rw [mem_imports_noting, h.mem_imports, or_assoc]
    simp [or_and_right, exists_or]
  needsEmptyObject := by
    rw [List.any_append, ← h.needsEmptyObject]
    simp [Writer.noting]

theorem Wrote.field (h : Wrote w types written) (f : FieldDecl) :
    Wrote (w.field f) (types ++ [f.type]) (written ++ f.text) := by
  have hmarkers := (h.noting f.type).write
    (terminated (f.commentLines ++ f.formatLines ++ f.choiceLines ++ f.defaultLines))
  have hline := hmarkers.write (f.line ++ "\n")
  rw [FieldDecl.text_eq, FieldDecl.lines, terminated_append _ [f.line], terminated_singleton,
    ← String.append_assoc, Writer.field, typeText_eq]
  exact hline

/-- What each of some parts adds, they add one after another. -/
theorem Wrote.foldl {α : Type} {part : Writer → α → Writer} {partTypes : α → List Resolved}
    {partText : α → String}
    (hpart : ∀ {w types written} a, Wrote w types written →
      Wrote (part w a) (types ++ partTypes a) (written ++ partText a))
    (h : Wrote w types written) (parts : List α) :
    Wrote (parts.foldl part w) (types ++ parts.flatMap partTypes)
      (written ++ String.join (parts.map partText)) := by
  induction parts generalizing w types written with
  | nil => simpa using h
  | cons a parts ih =>
      have hrest := ih (hpart a h)
      rw [List.append_assoc, String.append_assoc] at hrest
      rwa [List.foldl_cons, List.flatMap_cons, List.map_cons, String.join_cons]

theorem Wrote.struct (h : Wrote w types written) (s : StructDecl) :
    Wrote (w.struct s) (types ++ s.fields.map (·.type)) (written ++ s.text) := by
  have hopen := h.write (docText s.ident s.doc ++ "type " ++ s.ident ++ " struct \x7b\n")
  have hfields := Wrote.foldl (fun f hw => hw.field f) hopen s.fields
  have hclosed := hfields.write "\x7d\n\n"
  rw [← List.map_eq_flatMap] at hclosed
  have htext : written ++ s.text =
      written ++ (docText s.ident s.doc ++ "type " ++ s.ident ++ " struct \x7b\n") ++
        String.join (s.fields.map FieldDecl.text) ++ "\x7d\n\n" := by
    rw [StructDecl.text]
    simp only [String.append_assoc]
  rw [htext]
  exact hclosed

theorem Wrote.enum (h : Wrote w types written) (e : EnumDecl) :
    Wrote (w.enum e) (types ++ []) (written ++ e.text) := by
  rw [List.append_nil]
  exact h.write e.text

/-- At the end the body is that of the file, and all its field types are noted. -/
theorem wrote_declarations (f : File) : Wrote (declarations f) f.fieldTypes f.bodyText := by
  have hstructs := Wrote.foldl (fun s hw => hw.struct s) wrote_start f.structs
  have hall := Wrote.foldl (fun e hw => hw.enum e) hstructs f.enums
  have htypes : [] ++ (f.structs.flatMap fun s => s.fields.map (·.type)) ++
      (f.enums.flatMap fun _ => []) = f.fieldTypes := by
    rw [List.flatMap_eq_nil_iff.mpr fun _ _ => rfl, List.append_nil, List.nil_append]
    rfl
  rw [htypes] at hall
  rw [declarations, hall.needsEmptyObject, File.bodyText, File.hasEmptyObject]
  split
  · exact hall.write emptyObjectText
  · rwa [String.append_empty]

/-- The pass writes the file. -/
theorem text_declarations (f : File) : (declarations f).text f.package = f.text := by
  have hwrote := wrote_declarations f
  have himports : Package.all.filter (declarations f).imports.contains = f.imports := by
    refine List.filter_congr fun p _ => ?_
    rw [Bool.eq_iff_iff, List.contains_iff_mem, hwrote.mem_imports, Bool.or_eq_true, beq_iff_eq,
      List.any_eq_true]
  rw [text, himports, hwrote.body, File.text]

end Writer

/-- Writing a file in one pass gives the declarations of a graph. -/
theorem declarations_eq (r : Resolver) (package : String) :
    declarations r package =
      (file r package).map fun f => (Writer.declarations f).text f.package := by
  rw [declarations, funext Writer.text_declarations]

end AnnotatedValues.Go
