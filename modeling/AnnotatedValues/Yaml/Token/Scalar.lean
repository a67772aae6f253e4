import AnnotatedValues.Decimal.Text
import AnnotatedValues.Yaml.Character

/-! # Scalars in a stream

Plain, quoted and block scalars, read character by character. Each reader returns the text, the
place after the scalar and the rest of the stream, or nothing when the scalar is malformed. Texts
under construction are lists with the last character first. -/
namespace AnnotatedValues.Yaml

open Decimal

/-- White space between two words of a scalar: spaces on one line, or line breaks. -/
structure Gap where
  /-- Spaces and tabs before any line break, last first. -/
  blanks : List Char
  /-- Whether a line has ended. -/
  broken : Bool
  /-- The first line break, unless it was escaped. -/
  first : Option Char
  /-- Line breaks after the first, last first. -/
  more : List Char
  deriving DecidableEq, Repr, Inhabited

namespace Gap

def empty : Gap := ⟨[], false, none, []⟩

/-- The gap after an escaped line break. -/
def escaped : Gap := ⟨[], true, none, []⟩

def addBlank (g : Gap) (c : Char) : Gap :=
  if g.broken then g else { g with blanks := c :: g.blanks }

def addBreak (g : Gap) (c : Char) : Gap :=
  if g.broken then { g with more := c :: g.more } else ⟨[], true, some c, []⟩

/-- What the gap stands for, last first: a single line feed is a space, further ones stay. -/
def folded (g : Gap) : List Char :=
  if g.broken then
    match g.first with
    | some '\n' => if g.more.isEmpty then [' '] else g.more
    | some c => g.more ++ [c]
    | none => g.more
  else g.blanks

end Gap

/-- A scalar and what comes after it. -/
structure ScalarReading where
  text : List Char
  position : Position
  rest : List Char
  /-- Whether a line ended after the last word. -/
  broken : Bool
  deriving DecidableEq, Repr, Inhabited

/-- In a flow collection, a colon may not stand right before these characters. -/
def isFlowClash : List Char → Bool
  | c :: _ => c == ',' || c == '?' || c == '[' || c == ']' || c == '{' || c == '}'
  | [] => false

def isFlowIndicator (c : Char) : Bool :=
  c == ',' || c == '[' || c == ']' || c == '{' || c == '}'

/-- Reads a plain scalar on from the text read so far. `between` tells that the last character was
white space. In block context, lines with fewer than `indent` columns of indentation end it. -/
def readPlain (flow : Bool) (indent : Int) (text : List Char) (gap : Gap) (between : Bool)
    (position : Position) : List Char → Option ScalarReading
  | [] => some ⟨text.reverse, position, [], gap.broken⟩
  | c :: cs =>
    if isSpaceOrTab c then
      if gap.broken && position.column < indent && c == '\t' then none
      else readPlain flow indent text (gap.addBlank c) true (position.past c) cs
    else if isBreak c then
      readPlain flow indent text (gap.addBreak c) true position.newline cs
    else if between && ((!flow && position.column < indent) ||
        (position.column == 0 && atDocumentMark (c :: cs)) || c == '#') then
      some ⟨text.reverse, position, c :: cs, gap.broken⟩
    else if flow && c == ':' && isFlowClash cs then none
    else if (c == ':' && atWordEnd cs) || (flow && isFlowIndicator c) then
      some ⟨text.reverse, position, c :: cs, gap.broken⟩
    else
      readPlain flow indent (c :: gap.folded ++ text) .empty false (position.past c) cs

/-- The character that an escape letter stands for. -/
def escapedChar? (c : Char) : Option Char :=
  match c with
  | '0' => some '\x00' | 'a' => some '\x07' | 'b' => some '\x08' | 't' => some '\t'
  | '\t' => some '\t' | 'n' => some '\n' | 'v' => some '\x0b' | 'f' => some '\x0c'
  | 'r' => some '\r' | 'e' => some '\x1b' | ' ' => some ' ' | '"' => some '"'
  | '/' => some '/' | '\\' => some '\\' | 'N' => some '\x85' | '_' => some '\xa0'
  | 'L' => some '\u2028' | 'P' => some '\u2029'
  | _ => none

/-- How many hexadecimal digits follow an escape letter. -/
def escapeWidth? (c : Char) : Option Nat :=
  match c with
  | 'x' => some 2
  | 'u' => some 4
  | 'U' => some 8
  | _ => none

inductive QuoteState where
  /-- In a word. -/
  | word
  /-- In white space. -/
  | gap
  /-- After a backslash. -/
  | escape
  /-- In an escape by number, with so many digits to come. -/
  | digits (left value : Nat)
  /-- After a single quote, which a second one would make part of the text. -/
  | quote
  deriving DecidableEq, Repr

/-- Reads a quoted scalar on, up to and including its closing quote. -/
def readQuoted (double : Bool) (state : QuoteState) (text : List Char) (gap : Gap)
    (position : Position) : List Char → Option ScalarReading
  | [] => if state = .quote then some ⟨text.reverse, position, [], false⟩ else none
  | c :: cs =>
    let next := position.past c
    match state with
    | .quote =>
      if c == '\'' then readQuoted double .word (c :: text) .empty next cs
      else some ⟨text.reverse, position, c :: cs, false⟩
    | .escape =>
      if isBreak c then readQuoted double .gap text .escaped position.newline cs
      else match escapedChar? c, escapeWidth? c with
        | some e, _ => readQuoted double .word (e :: text) .empty next cs
        | none, some width => readQuoted double (.digits width 0) text .empty next cs
        | none, none => none
    | .digits left value =>
      match digitValue? 16 c with
      | none => none
      | some digit =>
        let value := value * 16 + digit
        if left ≤ 1 then
          if value.isValidChar then
            readQuoted double .word (Char.ofNat value :: text) .empty next cs
          else none
        else readQuoted double (.digits (left - 1) value) text .empty next cs
    | .word | .gap =>
      if isSpaceOrTab c then readQuoted double .gap text (gap.addBlank c) next cs
      else if isBreak c then readQuoted double .gap text (gap.addBreak c) position.newline cs
      else if state = .gap && position.column == 0 && atDocumentMark (c :: cs) then none
      else
        let text := gap.folded ++ text
        if double && c == '"' then some ⟨text.reverse, next, cs, false⟩
        else if double && c == '\\' then readQuoted double .escape text .empty next cs
        else if !double && c == '\'' then readQuoted double .quote text .empty next cs
        else readQuoted double .word (c :: text) .empty next cs

/-- What becomes of the line breaks at the end of a block scalar. -/
inductive Chomping where
  | strip
  | clip
  | keep
  deriving DecidableEq, Repr

/-- The indicators of a block scalar, in either order: chomping and indentation. -/
structure BlockHeader where
  chomping : Chomping
  increment : Nat
  rest : List Char

def chomping? (c : Char) : Option Chomping :=
  if c == '+' then some .keep else if c == '-' then some .strip else none

def readBlockHeader : List Char → Option BlockHeader
  | [] => some ⟨.clip, 0, []⟩
  | c :: cs =>
    match chomping? c with
    | some chomping =>
      match cs with
      | d :: rest =>
        if d.isDigit then
          if d == '0' then none else some ⟨chomping, d.toNat - 48, rest⟩
        else some ⟨chomping, 0, cs⟩
      | [] => some ⟨chomping, 0, []⟩
    | none =>
      if c.isDigit then
        if c == '0' then none
        else match cs with
          | d :: rest =>
            match chomping? d with
            | some chomping => some ⟨chomping, c.toNat - 48, rest⟩
            | none => some ⟨.clip, c.toNat - 48, cs⟩
          | [] => some ⟨.clip, c.toNat - 48, []⟩
      else some ⟨.clip, 0, c :: cs⟩

/-- A block scalar under construction. -/
structure BlockText where
  /-- Columns of indentation; zero until the first line of text shows them. -/
  indent : Nat
  /-- The widest indentation of the lines before the next line of text. -/
  widest : Nat
  text : List Char
  /-- The line break after the last line of text. -/
  lineBreak : Option Char
  /-- The breaks of the empty lines after it, last first. -/
  empties : List Char
  /-- Whether the last line of text starts with a space or tab. -/
  indented : Bool
  deriving DecidableEq, Repr, Inhabited

namespace BlockText

/-- Starts a line of text with the character `c`. A line break between two unindented lines of a
folded scalar becomes a space, or nothing if empty lines follow it. -/
def startLine (folding : Bool) (b : BlockText) (indent : Nat) (c : Char) : BlockText :=
  let indented := isSpaceOrTab c
  let joint :=
    if folding && b.lineBreak == some '\n' && !b.indented && !indented then
      if b.empties.isEmpty then [' '] else []
    else b.lineBreak.toList
  { indent, widest := 0, text := c :: b.empties ++ joint ++ b.text, lineBreak := none,
    empties := [], indented }

def finish (chomping : Chomping) (b : BlockText) : List Char :=
  let ending := match chomping with
    | .strip => []
    | .clip => b.lineBreak.toList
    | .keep => b.empties ++ b.lineBreak.toList
  (ending ++ b.text).reverse

end BlockText

/-- Reads the lines of a block scalar. `inLine` tells that a line of text has begun; `least` is the
least indentation that an undeclared one may have. -/
def readBlockLines (folding : Bool) (chomping : Chomping) (least : Nat) (inLine : Bool)
    (b : BlockText) (position : Position) : List Char → Option ScalarReading
  | [] => some ⟨b.finish chomping, position, [], false⟩
  | c :: cs =>
    if inLine then
      if isBreak c then
        readBlockLines folding chomping least false { b with lineBreak := some c }
          position.newline cs
      else
        readBlockLines folding chomping least true { b with text := c :: b.text }
          (position.past c) cs
    else
      let within := b.indent == 0 || position.column < b.indent
      if within && c == ' ' then
        readBlockLines folding chomping least false b (position.past c) cs
      else if within && c == '\t' then none
      else
        let widest := max b.widest position.column
        if isBreak c then
          readBlockLines folding chomping least false
            { b with widest, empties := c :: b.empties } position.newline cs
        else
          let indent := if b.indent == 0 then max widest least else b.indent
          if position.column == indent then
            readBlockLines folding chomping least true (b.startLine folding indent c)
              (position.past c) cs
          else some ⟨b.finish chomping, position, c :: cs, false⟩

/-- Reads a block scalar from after its `|` or `>`. `parent` is the indentation around it. -/
def readBlock (folding : Bool) (parent : Int) (position : Position) (cs : List Char) :
    Option ScalarReading := do
  let header ← readBlockHeader cs
  let blank := header.rest.dropWhile isSpaceOrTab
  let comment := match blank with
    | '#' :: _ => blank.dropWhile fun c => !isBreak c
    | _ => blank
  let indent := if header.increment == 0 then 0 else (max parent 0).toNat + header.increment
  let least := max (parent + 1).toNat 1
  let b : BlockText := ⟨indent, 0, [], none, [], false⟩
  match comment with
  | [] =>
    some ⟨b.finish header.chomping, position.pastAll cs, [], false⟩
  | c :: rest =>
    if isBreak c then readBlockLines folding header.chomping least false b position.newline rest
    else none

end AnnotatedValues.Yaml
