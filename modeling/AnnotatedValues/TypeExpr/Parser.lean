import AnnotatedValues.Text.Blank
import AnnotatedValues.TypeExpr.Basic

/-! # Reading type expressions

Blanks may stand before and after every part. Behind the expression, a block may hold modifiers;
the first blank before one of their names and a colon or equals sign ends the expression. -/
namespace AnnotatedValues.TypeExpr

open Text

/-- What is wrong with an expression. -/
inductive Fault where
  | missingName
  | unexpected (c : Char)
  | unterminatedKey
  | unsupportedKey (key : List Char)
  deriving DecidableEq, Repr

def Fault.message : Fault → String
  | .missingName => "missing type name"
  | .unexpected c => "unexpected character `" ++ String.ofList [c] ++ "`"
  | .unterminatedKey => "unterminated map key"
  | .unsupportedKey key => "unsupported map key type `" ++ String.ofList key ++ "`"

/-- Characters of type names. -/
def isNameChar (c : Char) : Bool := c.isAlphanum || c == '_' || c == '-' || c == '.'

def parseName (cs : List Char) : Except Fault TypeExpr :=
  match cs.find? fun c => !isNameChar c with
  | some c => .error (.unexpected c)
  | none => .ok (.named (String.ofList cs))

mutual

/-- Parses an expression behind any blanks. The text has none at its end. -/
def parseFrom : List Char → Except Fault TypeExpr
  | [] => .error .missingName
  | '*' :: cs => (parseFrom cs).map .pointer
  | '[' :: ']' :: cs => (parseFrom cs).map .array
  | 'm' :: 'a' :: 'p' :: '[' :: cs => parseKey [] cs
  | c :: cs => if isBlank c then parseFrom cs else parseName (c :: cs)
termination_by structural cs => cs

/-- Parses a map from behind its opening bracket; `key` is the key so far, last character first. -/
def parseKey (key : List Char) : List Char → Except Fault TypeExpr
  | [] => .error .unterminatedKey
  | c :: cs =>
    if c == ']' then
      let key := trim key.reverse
      if key == "string".toList then (parseFrom cs).map .map else .error (.unsupportedKey key)
    else parseKey (c :: key) cs
termination_by structural cs => cs

end

/-- A modifier's name and then a colon or an equals sign. -/
def startsModifier (cs : List Char) : Bool :=
  let rest? := (dropLead? "enum".toList cs).or (dropLead? "default".toList cs)
  match rest?.map trimStart with
  | some (c :: _) => c == ':' || c == '='
  | _ => false

/-- The text up to the blanks before the first modifier. -/
def cutModifiers : List Char → List Char
  | [] => []
  | c :: cs => if isBlank c && startsModifier (trimStart cs) then [] else c :: cutModifiers cs

/-- The type part of a block. -/
def stripModifiers (block : List Char) : List Char := trim (cutModifiers (trim block))

/-- Parses the type part of a block. -/
def parse (block : List Char) : Except Fault TypeExpr := parseFrom (stripModifiers block)

end AnnotatedValues.TypeExpr
