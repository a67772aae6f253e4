import AnnotatedValues.Go.Default
import AnnotatedValues.Go.Type
import AnnotatedValues.Resolved.Reach

/-! # Declarations in Go

A struct for the parameters and for each struct type that values can contain, and the enumerations.
Markers in comments carry formats, choices and defaults. -/
namespace AnnotatedValues.Go

/-- A field of a struct, ready to be written. -/
structure FieldDecl where
  ident : String
  key : String
  type : Resolved
  member : Member
  deriving DecidableEq, Repr

def marker (name value : String) : String := "\t// +kubebuilder:" ++ name ++ value ++ "\n"

def FieldDecl.formatText (f : FieldDecl) : String :=
  match f.type.stripPointer with
  | .format name => marker "validation:Format=" name
  | _ => ""

/-- Pointers, arrays, maps and optional members may be left out of the JSON form. -/
def FieldDecl.mayBeOmitted (f : FieldDecl) : Bool :=
  match f.type with
  | .pointer _ | .array _ | .map _ => true
  | _ => f.member.optional

def FieldDecl.text (f : FieldDecl) : String :=
  (if f.member.comment.isEmpty then "" else "\t// " ++ f.member.comment ++ "\n") ++
  f.formatText ++
  (if f.member.choices.isEmpty then ""
    else marker "validation:Enum=" (choicesText f.member.choices)) ++
  (match f.member.default?.bind fun d => DefaultValue.ofText? d.text f.type with
    | some value => marker "default:=" (defaultText value)
    | none => "") ++
  "\t" ++ f.ident ++ " " ++ typeText f.type ++ " `json:\"" ++ f.key ++
  (if f.mayBeOmitted then ",omitempty" else "") ++ "\"`\n"

/-- A struct with its description. -/
structure StructDecl where
  ident : String
  doc : String
  fields : List FieldDecl
  deriving DecidableEq, Repr

def docText (ident doc : String) : String :=
  if doc.isEmpty then "" else "// " ++ ident ++ " " ++ doc ++ "\n"

def StructDecl.text (s : StructDecl) : String :=
  docText s.ident s.doc ++ "type " ++ s.ident ++ " struct \x7b\n" ++
    String.join (s.fields.map FieldDecl.text) ++ "\x7d\n\n"

/-- The fields for members at slots under their names, with identifiers that differ. -/
def fieldDecls (r : Resolver) (slots : List (String × Slot)) : Except Unresolved (List FieldDecl) :=
  let idents := Identifier.assignFree [] (slots.map fun s => (s.1, Identifier.withLetter 'X' s.1))
  (slots.zip idents).mapM fun ((key, slot), (_, ident)) => do
    let type ← r.resolveSlot slot
    return ⟨ident, key, type, (r.graph.member? slot).getD .blank⟩

/-- The struct that has a field for each parameter. -/
def specDecl (r : Resolver) : Except Unresolved StructDecl := do
  let slots := r.graph.sortedParams.map fun key => (r.graph.nameOf key, Slot.node key)
  return ⟨Identifier.rootSpec, "", ← fieldDecls r slots⟩

def structDecl (r : Resolver) (ref : StructRef) : Except Unresolved StructDecl := do
  let slots := (r.graph.fieldsOf ref.key).map fun f => (f.name, Slot.field ref.key f.name)
  let doc := ((r.graph.node? ref.key).map (·.doc)).getD ""
  return ⟨ref.ident, doc, ← fieldDecls r slots⟩

/-- All structs of the file: first that of the parameters. -/
def structDecls (r : Resolver) : Except Unresolved (List StructDecl) := do
  let spec ← specDecl r
  let structs ← r.structTypes.mapM (structDecl r)
  return spec :: structs

/-- An enumeration with its description. -/
structure EnumDecl where
  ident : String
  doc : String
  base : Primitive
  values : List String
  deriving DecidableEq, Repr

def EnumDecl.text (e : EnumDecl) : String :=
  docText e.ident e.doc ++
    "// +kubebuilder:validation:Enum=" ++ choicesText e.values ++ "\n" ++
    "type " ++ e.ident ++ " " ++ e.base.name ++ "\n\n"

def enumDecl (r : Resolver) (ref : EnumRef) : EnumDecl :=
  ⟨ref.ident, ((r.graph.node? ref.key).map (·.doc)).getD "", ref.base, ref.values⟩

end AnnotatedValues.Go
