import AnnotatedValues.Document.Json
import AnnotatedValues.Yaml.Character
import AnnotatedValues.Yaml.Plain

/-! # Documents as YAML in block style

Collections are indented by two columns, except that a sequence under a key stands below that key;
empty ones are closed brackets. A string is written plain if it reads back as that string, and else
in the first style that can hold it: literal block for texts with line feeds, single quotes, double
quotes. Lines are never folded. -/
namespace AnnotatedValues.Yaml

open Decimal Text

/-- Exponents are written without a plus sign. -/
def exponentFormat : ExponentFormat := ⟨false⟩

/-- Characters that need no escape: line feeds, and what is neither a control character nor a byte
order mark nor a noncharacter. -/
def isPrintable (c : Char) : Bool :=
  let n := c.toNat
  n == 0x0A || (0x20 ≤ n && n ≤ 0x7E) || (0xA0 ≤ n && n ≤ 0xFFFD && n != 0xFEFF) || 0x10000 ≤ n

/-- Some two neighbours satisfy `p` and `q`, in this order. -/
def hasPair (p q : Char → Bool) : List Char → Bool
  | a :: b :: cs => (p a && q b) || hasPair p q (b :: cs)
  | _ => false

def isSpace (c : Char) : Bool := c == ' '

/-- A colon at the end of a word, or a number sign at the start of one. -/
def hasInnerIndicator : List Char → Bool
  | [] => false
  | c :: cs =>
    (c == ':' && atWordEnd cs) ||
      ((isSpaceOrTab c || isBreak c) && cs.head? == some '#') || hasInnerIndicator cs

/-- The text would be taken for something other than a scalar at its start. -/
def startsWithIndicator : List Char → Bool
  | [] => false
  | c :: cs =>
    "#,[]\x7b\x7d&*!|>'\"%@`".toList.contains c || ((c == '?' || c == '-') && atWordEnd cs) ||
      (dropLead? ['-', '-', '-'] (c :: cs)).isSome || (dropLead? ['.', '.', '.'] (c :: cs)).isSome

def endsWith (p : Char → Bool) (cs : List Char) : Bool := (cs.getLast?.map p).getD false

def startsWith (p : Char → Bool) (cs : List Char) : Bool := (cs.head?.map p).getD false

def hasBreak (cs : List Char) : Bool := cs.any isBreak

/-- A character that only double quotes can hold, or a space before a line break. -/
def needsEscapes (cs : List Char) : Bool :=
  cs.any (fun c => !isPrintable c) || hasPair isSpace isBreak cs

def plainAllowed (cs : List Char) : Bool :=
  !(startsWith isSpace cs || endsWith isSpace cs || hasBreak cs || needsEscapes cs ||
    startsWithIndicator cs || hasInnerIndicator cs)

def singleQuotesAllowed (cs : List Char) : Bool :=
  !(needsEscapes cs || hasPair isBreak isSpace cs)

def literalAllowed (cs : List Char) : Bool :=
  !(cs.isEmpty || needsEscapes cs || endsWith isSpace cs)

inductive Style where
  | plain
  | single
  | double
  | literal
  deriving DecidableEq, Repr

/-- Whether a plain scalar with this text would be no string, or looks like a number. -/
def isAmbiguous (cs : List Char) : Bool := Plain.ofText cs != .text || Plain.isZeroPadded cs

def styleOf (cs : List Char) : Style :=
  if cs.contains '\n' then if literalAllowed cs then .literal else .double
  else if !isAmbiguous cs && plainAllowed cs then .plain
  else if singleQuotesAllowed cs then .single
  else .double

def spaces (n : Nat) : List Char := List.replicate n ' '

/-- The text with each line after a break indented. -/
def indentLines (indent : Nat) (afterBreak : Bool) : List Char → List Char
  | [] => []
  | c :: cs =>
    if isBreak c then c :: indentLines indent true cs
    else if afterBreak then spaces indent ++ c :: indentLines indent false cs
    else c :: indentLines indent false cs

def upperHexChar (n : Nat) : Char := if n < 10 then Char.ofNat (48 + n) else Char.ofNat (55 + n)

/-- The last `width` hexadecimal digits of a number. -/
def hexDigits : (width n : Nat) → List Char
  | 0, _ => []
  | width + 1, n => hexDigits width (n / 16) ++ [upperHexChar (n % 16)]

/-- The letter of an escape for the character. -/
def escapeLetter? (c : Char) : Option Char :=
  match c with
  | '\x00' => some '0' | '\x07' => some 'a' | '\x08' => some 'b' | '\t' => some 't'
  | '\n' => some 'n' | '\x0b' => some 'v' | '\x0c' => some 'f' | '\r' => some 'r'
  | '\x1b' => some 'e' | '"' => some '"' | '\\' => some '\\' | '\x85' => some 'N'
  | '\xa0' => some '_' | '\u2028' => some 'L' | '\u2029' => some 'P'
  | _ => none

def escapeChar (c : Char) : List Char :=
  if isPrintable c && !isBreak c && c != '"' && c != '\\' then [c]
  else match escapeLetter? c with
    | some letter => ['\\', letter]
    | none =>
      let n := c.toNat
      if n ≤ 0xFF then '\\' :: 'x' :: hexDigits 2 n
      else if n ≤ 0xFFFF then '\\' :: 'u' :: hexDigits 4 n
      else '\\' :: 'U' :: hexDigits 8 n

/-- What the header of a literal block says about the line breaks at its end. -/
def chompingMark (cs : List Char) : List Char :=
  match cs.reverse with
  | [] => ['-']
  | [c] => if isBreak c then ['+'] else ['-']
  | c :: d :: _ => if !isBreak c then ['-'] else if isBreak d then ['+'] else []

/-- A literal block whose lines stand at the column `indent`. A text that starts with white space
needs the indentation in the header. -/
def literalText (indent : Nat) (cs : List Char) : List Char :=
  let hint := if startsWith (fun c => isSpace c || isBreak c) cs then ['2'] else []
  '|' :: hint ++ chompingMark cs ++ '\n' :: indentLines indent true cs

/-- A string in quotes or plain or as a block, on lines indented by `indent`. -/
def stringText (indent : Nat) (cs : List Char) : List Char :=
  match styleOf cs with
  | .plain => cs
  | .single =>
    let text := indentLines indent false (cs.flatMap fun c => if c == '\'' then [c, c] else [c])
    '\'' :: text ++ (if endsWith isBreak cs then spaces indent else []) ++ ['\'']
  | .double => '"' :: cs.flatMap escapeChar ++ ['"']
  | .literal => literalText indent cs

/-- The text with a line feed, unless it is a literal block that ends its last line itself. -/
def endLine (cs : List Char) : List Char :=
  if endsWith isBreak cs then cs else cs ++ ['\n']

/-- The number of bytes of a text. -/
def byteCount (cs : List Char) : Nat := cs.foldr (fun c n => c.utf8Size + n) 0

/-- A key that fits on one line, before its colon. -/
def isSimpleKey (cs : List Char) : Bool := !hasBreak cs && byteCount cs ≤ 128

def scalarText (indent : Nat) : Document → List Char
  | .null => ['n', 'u', 'l', 'l']
  | .bool true => ['t', 'r', 'u', 'e']
  | .bool false => ['f', 'a', 'l', 's', 'e']
  | .number (.int n) => intText n
  | .number (.float x) => x.text exponentFormat
  | .string s => stringText indent s.toList
  | .array _ => ['[', ']']
  | .object _ => ['\x7b', '\x7d']

/-- Where a value stands: behind a dash or another mark in line with its column, where a collection
may start in the same line, or behind a key and a colon. -/
inductive Place where
  | mark
  | key
  deriving DecidableEq, Repr

/-- The column of the lines of a collection in a collection at the column `around`. -/
def innerColumn (around : Option Nat) : Nat :=
  match around with
  | some column => column + 2
  | none => 0

mutual

/-- A value and the end of its line, from behind the mark that precedes it. `around` is the column
of the collection around it. -/
def blockText (around : Option Nat) (place : Place) : Document → List Char
  | .array (item :: items) =>
    let column := if place = .key then around.getD 0 else innerColumn around
    let lines := blockItems column (item :: items)
    match place with
    | .key => '\n' :: spaces column ++ joined (spaces column) lines
    | .mark => (if around.isSome then [' '] else []) ++ joined (spaces column) lines
  | .object (entry :: entries) =>
    let column := innerColumn around
    let lines := blockEntries column (entry :: entries)
    match place with
    | .key => '\n' :: spaces column ++ joined (spaces column) lines
    | .mark => (if around.isSome then [' '] else []) ++ joined (spaces column) lines
  | .array [] => lead ++ endLine (scalarText indent (.array []))
  | .object [] => lead ++ endLine (scalarText indent (.object []))
  | .null => lead ++ endLine (scalarText indent .null)
  | .bool b => lead ++ endLine (scalarText indent (.bool b))
  | .number n => lead ++ endLine (scalarText indent (.number n))
  | .string s => lead ++ endLine (scalarText indent (.string s))
termination_by structural d => d
where
  lead : List Char := if around.isSome then [' '] else []
  indent : Nat := around.getD 0 + 2

def blockItems (column : Nat) : List Document → List (List Char)
  | [] => []
  | item :: items => ('-' :: blockText (some column) .mark item) :: blockItems column items
termination_by structural items => items

def blockEntries (column : Nat) : List (String × Document) → List (List Char)
  | [] => []
  | (key, value) :: entries =>
    let name := stringText (column + 2) key.toList
    (if isSimpleKey key.toList then name ++ ':' :: blockText (some column) .key value
      else '?' :: ' ' :: endLine name ++ spaces column ++ ':' ::
        blockText (some column) .mark value) :: blockEntries column entries
termination_by structural entries => entries

end

end AnnotatedValues.Yaml

namespace AnnotatedValues.Document

/-- The document as YAML in block style. -/
def yaml (d : Document) : String := String.ofList (Yaml.blockText none .mark d)

end AnnotatedValues.Document
