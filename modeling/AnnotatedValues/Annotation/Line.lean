import AnnotatedValues.Annotation.Literal
import AnnotatedValues.Text.Word

/-! # Annotation lines

A line is an annotation if, between blanks, it consists of number signs, blanks, an at sign
and one of seven words, alone or before a blank. What follows the word has a form of its own for
each word; a line that does not have it is prose. -/
namespace AnnotatedValues.Annotation

open Text

/-- A parameter or field as its line gives it. -/
structure Member where
  name : List Char
  optional : Bool
  block : List Char
  /-- Empty if there is none. -/
  default : List Char
  description : List Char
  deriving DecidableEq, Repr, Inhabited

/-- What a line says. -/
inductive Directive where
  | section (title : List Char)
  | typedef (name description : List Char)
  | enum (base name description : List Char)
  | value (token : List Char)
  | param (member : Member)
  | field (member : Member)
  deriving DecidableEq, Repr, Inhabited

/-- Characters of the names of members, which may be paths. -/
def isMemberChar (c : Char) : Bool := isWord c || c == '.' || c == '/' || c == '-'

/-- Characters of the names of types. -/
def isTypeChar (c : Char) : Bool := isWord c || c == '-'

/-- A name at the start of the text, whether it stands in square brackets, and the rest. -/
def takeName? : List Char → Option (List Char × Bool × List Char)
  | '[' :: cs =>
    match cs.takeWhile isMemberChar, cs.dropWhile isMemberChar with
    | c :: name, ']' :: rest => some (c :: name, true, rest)
    | _, _ => none
  | cs =>
    match cs.takeWhile isMemberChar with
    | [] => none
    | name => some (name, false, cs.dropWhile isMemberChar)

/-- The description behind a name or default: nothing, or a blank and then the text, from whose
start a dash of its own is removed. -/
def description? : List Char → Option (List Char)
  | [] => some []
  | c :: cs =>
    if isBlank c then
      match trim cs with
      | ['-'] => some []
      | '-' :: d :: rest => if isBlank d then some (trimStart rest) else some ('-' :: d :: rest)
      | text => some text
    else none

/-- A block, a name, and maybe a default behind an equals sign. -/
def blockFirst? (cs : List Char) : Option Member := do
  let (block, rest) ← takeBraced? cs
  let (name, optional, tail) ← takeName? (← afterBlank? rest)
  let (default, tail) ← match tail with
    | '=' :: tail => takeLiteral? tail
    | tail => some ([], tail)
  return { name, optional, block, default, description := ← description? tail }

/-- A name and then a block. -/
def nameFirst? (cs : List Char) : Option Member := do
  let (name, optional, rest) ← takeName? cs
  let (block, tail) ← takeBraced? (← afterBlank? rest)
  return { name, optional, block, default := [], description := ← description? tail }

def member? (cs : List Char) : Option Member := (blockFirst? cs).or (nameFirst? cs)

/-- A block, the name of a type, and a description. -/
def declaration? (cs : List Char) : Option (List Char × List Char × List Char) := do
  let (block, rest) ← takeBraced? cs
  let rest ← afterBlank? rest
  match rest.takeWhile isTypeChar with
  | [] => none
  | name => return (trim block, name, ← description? (rest.dropWhile isTypeChar))

/-- What the word `word` before the text `rest` says. -/
def directive? (word rest : List Char) : Option Directive :=
  if word == "section".toList then if rest.isEmpty then none else some (.section rest)
  else if word == "typedef".toList then
    match declaration? rest with
    | some (block, name, description) =>
      if block == "struct".toList || block == "object".toList then
        some (.typedef name description)
      else none
    | none => none
  else if word == "enum".toList then
    (declaration? rest).map fun (base, name, description) => .enum base name description
  else if word == "value".toList then
    match rest.takeWhile fun c => !isBlank c with
    | [] => none
    | token => some (.value token)
  else if word == "param".toList then (member? rest).map .param
  else if word == "field".toList || word == "property".toList then (member? rest).map .field
  else none

/-- The directive of a line; `none` for prose. -/
def Directive.ofLine? (line : List Char) : Option Directive :=
  match trim line with
  | '#' :: cs =>
    match afterBlank? (cs.dropWhile (· == '#')) with
    | some ('@' :: cs) =>
      directive? (cs.takeWhile fun c => !isBlank c) (trim (cs.dropWhile fun c => !isBlank c))
    | _ => none
  | _ => none

end AnnotatedValues.Annotation
