import AnnotatedValues.Annotation.Basic
import AnnotatedValues.Annotation.Line
import AnnotatedValues.Annotation.Modifier

/-! # Scanning a values file

The lines of a file are read in order. A type declaration is open for the fields that follow it, an
enumeration for its values; a parameter or a titled section closes both. -/
namespace AnnotatedValues.Annotation

open Text

/-- The declaration that the next lines may belong to. -/
inductive Open where
  | nothing
  | typedef (name : String)
  /-- An enumeration: the last row. -/
  | enum
  deriving DecidableEq, Repr, Inhabited

structure Scan where
  rows : List Row
  sections : List Section
  diagnostics : List Diagnostic
  deriving DecidableEq, Repr, Inhabited

namespace Scan

structure State where
  scan : Scan
  opened : Open
  deriving DecidableEq, Repr, Inhabited

def empty : State := ⟨⟨[], [], []⟩, .nothing⟩

/-- The title of the section of parameters that come before any section. -/
def untitled : String := "Parameters"

def addRow (s : State) (row : Row) : State :=
  { s with scan := { s.scan with rows := s.scan.rows ++ [row] } }

/-- Adds a value to the last row. -/
def addValue (token : String) : List Row → List Row
  | [] => []
  | [row] => [{ row with choices := row.choices ++ [token] }]
  | row :: rows => row :: addValue token rows

def addToLast (name : String) : List Section → List Section
  | [] => [⟨untitled, [name]⟩]
  | [last] => [{ last with params := last.params ++ [name] }]
  | first :: sections => first :: addToLast name sections

/-- Lists a parameter in the last section, unless some section lists it. -/
def register (name : String) (sections : List Section) : List Section :=
  if sections.any fun s => s.params.contains name then sections else addToLast name sections

/-- The row of a parameter or field. A default behind the name goes before one in the block. -/
def memberRow (line : Nat) (kind : Kind) (path : List String) (m : Member) : Row where
  kind := kind
  path := path
  typeBlock := String.ofList (trim m.block)
  choices := (blockChoices m.block).map String.ofList
  default := String.ofList
    (if m.default.isEmpty then (blockDefault? m.block).getD [] else m.default)
  description := String.ofList m.description
  optional := m.optional
  line := line

def declarationRow (line : Nat) (kind : Kind) (name base description : List Char) : Row where
  kind := kind
  path := [String.ofList name]
  typeBlock := String.ofList base
  choices := []
  default := ""
  description := String.ofList description
  optional := false
  line := line

def isSeparator (c : Char) : Bool := c == '.' || c == '/'

def orphanMessage (name : String) : String :=
  "field '" ++ name ++ "' has no enclosing @typedef and was ignored"

/-- A field belongs to the type before the separator in its name, or without a separator to the
open type. Names with more parts, or with empty ones, declare nothing. -/
def addField (s : State) (line : Nat) (m : Member) : State :=
  let name := String.ofList m.name
  match splitBy isSeparator m.name with
  | [parent, field] =>
    if parent.isEmpty || field.isEmpty then s
    else addRow s (memberRow line .field [String.ofList parent, String.ofList field] m)
  | [_] =>
    match s.opened with
    | .typedef parent => addRow s (memberRow line .field [parent, name] m)
    | _ =>
      { s with scan := { s.scan with
          diagnostics := s.scan.diagnostics ++ [⟨line, orphanMessage name⟩] } }
  | _ => s

/-- The effect of one directive. -/
def apply (s : State) (line : Nat) : Directive → State
  | .section title =>
    ⟨{ s.scan with sections := s.scan.sections ++ [⟨String.ofList title, []⟩] }, .nothing⟩
  | .typedef name description =>
    { addRow s (declarationRow line .typedef name [] description) with
      opened := .typedef (String.ofList name) }
  | .enum base name description =>
    { addRow s (declarationRow line .enum name base description) with opened := .enum }
  | .value token =>
    if s.opened = .enum then
      { s with scan := { s.scan with rows := addValue (String.ofList token) s.scan.rows } }
    else s
  | .param m =>
    let name := String.ofList m.name
    let sections := register name s.scan.sections
    addRow ⟨{ s.scan with sections }, .nothing⟩ (memberRow line .param [name] m)
  | .field m =>
    addField (if s.opened = .enum then { s with opened := .nothing } else s) line m

def step (s : State) (line : Nat) (text : List Char) : State :=
  match Directive.ofLine? text with
  | some directive => apply s line directive
  | none => s

/-- The effect of lines, the first of which has the number `line`. -/
def run (s : State) (line : Nat) : List (List Char) → State
  | [] => s
  | text :: texts => run (step s line text) (line + 1) texts

/-- The annotations of a text; its lines are counted from 1. -/
def ofText (text : List Char) : Scan := (run empty 1 (lines text)).scan

end Scan

end AnnotatedValues.Annotation
