import AnnotatedValues.Text.Blank

/-! # Wildcard patterns

A question mark stands for one character, a star for any number of them, brackets for one of a set
of characters, or with an exclamation mark for one that is not in the set. Two stars stand for any
number of directories and must be a whole component of the pattern. -/
namespace AnnotatedValues.Wildcard

open Text

/-- Characters that make a path a pattern. -/
def isSpecial (c : Char) : Bool := c == '*' || c == '?' || c == '[' || c == '{'

def isPattern (path : String) : Bool := path.toList.any isSpecial

inductive CharRange where
  | single (c : Char)
  | between (first last : Char)
  deriving DecidableEq, Repr

def CharRange.contains (c : Char) : CharRange → Bool
  | .single d => c == d
  | .between first last => first ≤ c && c ≤ last

inductive Token where
  | char (c : Char)
  | anyChar
  | anyText
  | oneOf (ranges : List CharRange)
  | noneOf (ranges : List CharRange)
  /-- Any number of directories. -/
  | deep
  deriving DecidableEq, Repr

/-- Whether a token that stands for one character stands for `c`. -/
def Token.admits (c : Char) : Token → Bool
  | .char d => c == d
  | .anyChar => true
  | .oneOf ranges => ranges.any (CharRange.contains c)
  | .noneOf ranges => !ranges.any (CharRange.contains c)
  | .anyText | .deep => false

/-- For tokens and each of their tails, whether they stand for the empty text. -/
def emptyRow : List Token → List Bool
  | [] => [true]
  | token :: tokens =>
    let row := emptyRow tokens
    (token == .anyText && row.headD false) :: row

/-- For tokens and each of their tails, whether they stand for `c` and a text behind it, given the
same row for that text. -/
def nextRow (c : Char) : List Token → List Bool → List Bool
  | token :: tokens, mark :: marks =>
    let row := nextRow c tokens marks
    (if token == .anyText then row.headD false || mark
      else token.admits c && marks.headD false) :: row
  | _, _ => [false]

/-- For tokens and each of their tails, whether they stand for the text. -/
def matchRow (tokens : List Token) (cs : List Char) : List Bool :=
  cs.foldr (fun c row => nextRow c tokens row) (emptyRow tokens)

/-- Whether tokens stand for a text. -/
def isMatch (tokens : List Token) (cs : List Char) : Bool := (matchRow tokens cs).headD false

inductive Cause where
  | range
  | component
  | stars
  deriving DecidableEq, Repr, Inhabited

/-- Why a text is no pattern, and at which of its characters. -/
structure Fault where
  position : Nat
  cause : Cause
  deriving DecidableEq, Repr, Inhabited

def Cause.message : Cause → String
  | .range => "invalid range pattern"
  | .component => "recursive wildcards must form a single path component"
  | .stars => "wildcards are either regular `*` or recursive `**`"

def ranges : List Char → List CharRange
  | [] => []
  | first :: '-' :: last :: cs => .between first last :: ranges cs
  | c :: cs => .single c :: ranges cs

/-- The set whose characters start with `first`, and the length of the rest of it with the closing
bracket. The first character may be a closing bracket too. -/
def closedSet? (first : Char) (cs : List Char) : Option (List CharRange × Nat) :=
  (cs.findIdx? (· == ']')).map fun i => (ranges (first :: cs.take i), i + 1)

/-- The set behind an opening bracket and its length with the closing bracket. -/
def takeSet? : List Char → Option (Token × Nat)
  | [] => none
  | '!' :: cs =>
    match cs with
    | [] => none
    | first :: cs => (closedSet? first cs).map fun (set, length) => (.noneOf set, length + 2)
  | first :: cs => (closedSet? first cs).map fun (set, length) => (.oneOf set, length + 1)

/-- Whether a component may start behind the character. -/
def isBoundary : Option Char → Bool
  | none => true
  | some c => c == '/'

/-- The tokens of a pattern without its first `skip` characters. `position` counts the characters
before it, the last of which is `before?`. -/
def tokensFrom (skip position : Nat) (before? : Option Char) :
    List Char → Except Fault (List Token)
  | [] => .ok []
  | c :: cs =>
    let next (token : Token) (skip : Nat) : Except Fault (List Token) :=
      (tokensFrom skip (position + 1) (some c) cs).map (token :: ·)
    match skip with
    | skip + 1 => tokensFrom skip (position + 1) (some c) cs
    | 0 =>
      if c == '?' then next .anyChar 0
      else if c == '[' then
        match takeSet? cs with
        | some (token, length) => next token length
        | none => .error ⟨position, .range⟩
      else if c == '*' then
        match cs with
        | '*' :: '*' :: _ => .error ⟨position + 2, .stars⟩
        | '*' :: rest =>
          if isBoundary before? then
            if isBoundary rest.head? then next .deep 2 else .error ⟨position + 2, .component⟩
          else .error ⟨position - 1, .component⟩
        | _ => next .anyText 0
      else next (.char c) 0

def tokens (pattern : List Char) : Except Fault (List Token) := tokensFrom 0 0 none pattern

/-- The text that tokens stand for, if it is the only one. -/
def literal? : List Token → Option (List Char)
  | [] => some []
  | .char c :: tokens => (literal? tokens).map (c :: ·)
  | _ => none

/-- A pattern for paths: from the root or from the working directory. -/
structure Pattern where
  isRooted : Bool
  components : List (List Token)
  /-- Only directories match. -/
  needsDirectory : Bool
  deriving DecidableEq, Repr

/-- The pieces between slashes; a slash at the end ends a piece. -/
def componentTexts (cs : List Char) : List (List Char) :=
  let pieces := splitBy (· == '/') cs
  if pieces.getLast? == some [] then pieces.dropLast else pieces

/-- The whole pattern is read before its components are read by themselves. -/
def pattern (text : String) : Except Fault Pattern := do
  let cs := text.toList
  let _ ← tokens cs
  let isRooted := cs.head? == some '/'
  let components ← (componentTexts (if isRooted then cs.drop 1 else cs)).mapM tokens
  return ⟨isRooted, components, cs.getLast? == some '/'⟩

end AnnotatedValues.Wildcard
