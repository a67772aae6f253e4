import AnnotatedValues.Annotation.Literal
import AnnotatedValues.Text.Word

/-! # Modifiers in type blocks

Behind the type, a block may restrict its member to choices, as in `enum:"a,b"`, and give a
default, as in `default:"x"` or `default=x`. -/
namespace AnnotatedValues.Annotation

open Text

/-- Reading a word, a colon and a text in double quotes; parts read are last first. -/
inductive AttributeState where
  | word (read : List Char)
  | colon (name : List Char)
  | quoted (name read : List Char)
  deriving DecidableEq, Repr

/-- All words with a colon and a quoted text behind them, from left to right. -/
def attributesFrom (state : AttributeState) : List Char → List (List Char × List Char)
  | [] => []
  | c :: cs =>
    match state with
    | .word read =>
      if isWord c then attributesFrom (.word (c :: read)) cs
      else if c == ':' && !read.isEmpty then attributesFrom (.colon read) cs
      else attributesFrom (.word []) cs
    | .colon name =>
      if c == '"' then attributesFrom (.quoted name []) cs
      else attributesFrom (.word (if isWord c then [c] else [])) cs
    | .quoted name read =>
      if c == '"' then (name.reverse, read.reverse) :: attributesFrom (.word []) cs
      else attributesFrom (.quoted name (c :: read)) cs

def attributesOf (block : List Char) : List (List Char × List Char) :=
  attributesFrom (.word []) block

/-- The value of the last attribute with the given name. -/
def lastAttribute? (name : List Char) (block : List Char) : Option (List Char) :=
  (attributesOf block).reverse.lookup name

/-- The members of a list of choices: parts between commas, without blanks around them. -/
def choicesOf (text : List Char) : List (List Char) :=
  ((splitBy (· == ',') text).map trim).filter fun choice => !choice.isEmpty

/-- The choices that a block restricts its member to. -/
def blockChoices (block : List Char) : List (List Char) :=
  ((lastAttribute? "enum".toList block).map choicesOf).getD []

/-- The text behind the first `default` and an equals sign, where a word begins. -/
def behindDefault? (inWord : Bool) : List Char → Option (List Char)
  | [] => none
  | c :: cs =>
    let behind? :=
      if inWord then none
      else match dropLead? "default".toList (c :: cs) with
        | some rest =>
          match trimStart rest with
          | '=' :: rest => some (trimStart rest)
          | _ => none
        | none => none
    match behind? with
    | some rest => some rest
    | none => behindDefault? (isWord c) cs

/-- The default that a block gives: the literal behind an equals sign, else the quoted text. -/
def blockDefault? (block : List Char) : Option (List Char) :=
  match (behindDefault? false block).bind takeLiteral? with
  | some (literal, _) => some literal
  | none => lastAttribute? "default".toList block

end AnnotatedValues.Annotation
