import AnnotatedValues.Decimal.Text
import AnnotatedValues.Document.Basic
import AnnotatedValues.Text.Blank

/-! # Documents as JSON text

Strings escape quotation marks, backslashes and control characters and nothing else. The compact
form has no space at all; the indented form gives each item and entry a line of its own, two
columns further in, and leaves empty arrays and objects closed. -/
namespace AnnotatedValues.Json

open Decimal Text

/-- A positive exponent is written with its sign. -/
def exponentFormat : ExponentFormat := ⟨true⟩

def hexChar (n : Nat) : Char := if n < 10 then Char.ofNat (48 + n) else Char.ofNat (87 + n)

def escapeChar (c : Char) : List Char :=
  if c == '"' then ['\\', '"']
  else if c == '\\' then ['\\', '\\']
  else if c == '\n' then ['\\', 'n']
  else if c == '\r' then ['\\', 'r']
  else if c == '\t' then ['\\', 't']
  else if c == '\x08' then ['\\', 'b']
  else if c == '\x0c' then ['\\', 'f']
  else if c.toNat < 0x20 then
    ['\\', 'u', '0', '0', hexChar (c.toNat / 16), hexChar (c.toNat % 16)]
  else [c]

def escape (cs : List Char) : List Char := cs.flatMap escapeChar

/-- A string literal. -/
def quoted (s : String) : List Char := '"' :: escape s.toList ++ ['"']

def numberText : Number → List Char
  | .int n => intText n
  | .float x => x.text exponentFormat

mutual

def compact : Document → List Char
  | .null => ['n', 'u', 'l', 'l']
  | .bool true => ['t', 'r', 'u', 'e']
  | .bool false => ['f', 'a', 'l', 's', 'e']
  | .number n => numberText n
  | .string s => quoted s
  | .array items => '[' :: joined [','] (compactItems items) ++ [']']
  | .object entries => '{' :: joined [','] (compactEntries entries) ++ ['}']
termination_by structural d => d

def compactItems : List Document → List (List Char)
  | [] => []
  | item :: items => compact item :: compactItems items
termination_by structural items => items

def compactEntries : List (String × Document) → List (List Char)
  | [] => []
  | (key, value) :: entries => (quoted key ++ ':' :: compact value) :: compactEntries entries
termination_by structural entries => entries

end

def spaces (n : Nat) : List Char := List.replicate n ' '

/-- Members on lines of their own between brackets that stand at the column `column`. -/
def block (opening closing : Char) (column : Nat) (members : List (List Char)) : List Char :=
  if members.isEmpty then [opening, closing]
  else
    let line := '\n' :: spaces (column + 2)
    opening :: line ++ joined (',' :: line) members ++ '\n' :: spaces column ++ [closing]

mutual

def indented (column : Nat) : Document → List Char
  | .array items => block '[' ']' column (indentedItems (column + 2) items)
  | .object entries => block '{' '}' column (indentedEntries (column + 2) entries)
  | .null => compact .null
  | .bool b => compact (.bool b)
  | .number n => compact (.number n)
  | .string s => compact (.string s)
termination_by structural d => d

def indentedItems (column : Nat) : List Document → List (List Char)
  | [] => []
  | item :: items => indented column item :: indentedItems column items
termination_by structural items => items

def indentedEntries (column : Nat) : List (String × Document) → List (List Char)
  | [] => []
  | (key, value) :: entries =>
    (quoted key ++ ':' :: ' ' :: indented column value) :: indentedEntries column entries
termination_by structural entries => entries

end

end AnnotatedValues.Json

namespace AnnotatedValues.Document

/-- Compact JSON. -/
def json (d : Document) : String := String.ofList (Json.compact d)

/-- Indented JSON, ended by a line feed. -/
def indentedJson (d : Document) : String := String.ofList (Json.indented 0 d ++ ['\n'])

end AnnotatedValues.Document
