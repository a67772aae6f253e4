import AnnotatedValues.Yaml.Token.Property
import AnnotatedValues.Yaml.Token.Scalar

/-! # The tokens of a stream

Whether a scalar is a mapping key shows only at the colon behind it. Until then it is a candidate:
when the colon comes, the tokens for the key, and for the mapping it may open, are put before it.
A candidate lapses at the end of its line and after 1024 octets; in block context one that stands at
the current indentation must turn out to be a key. No token is released while it or one before it is
a candidate, so a malformed stream yields the tokens before the fault and before the candidates that
were left open. -/
namespace AnnotatedValues.Yaml

/-- A token that may be the start of a mapping key. -/
structure Candidate where
  /-- How many tokens come before it. -/
  number : Nat
  required : Bool
  position : Position
  deriving DecidableEq, Repr, Inhabited

structure Scanner where
  rest : List Char
  /-- Whether `rest` is followed by a block that is not allowed. -/
  cut : Bool
  position : Position
  /-- The tokens so far, last first. -/
  produced : List Token
  /-- Their number. -/
  count : Nat
  /-- The indentation of the innermost block collection, -1 outside of all. -/
  indent : Int
  /-- The indentations around it, innermost first. -/
  outer : List Int
  /-- The candidate of block context. -/
  candidate : Option Candidate
  /-- The candidates of the open flow collections, innermost first. -/
  flow : List (Option Candidate)
  /-- Whether a candidate may start here. -/
  keyAllowed : Bool
  deriving Repr, Inhabited

namespace Scanner

def start (text : List Char) : Scanner :=
  let (allowed, cut) := allowedPart text
  ⟨unifyBreaks allowed, cut, .start, [], 0, -1, [], none, [], true⟩

def inFlow (s : Scanner) : Bool := !s.flow.isEmpty

def emit (s : Scanner) (token : Token) : Scanner :=
  { s with produced := token :: s.produced, count := s.count + 1 }

/-- Puts `token` before the last `n` members. -/
def insertBefore (token : Token) : (n : Nat) → List Token → List Token
  | 0, tokens => token :: tokens
  | _ + 1, [] => [token]
  | n + 1, last :: tokens => last :: insertBefore token n tokens

/-- Puts `token` before the token with the given number. -/
def emitBefore (s : Scanner) (number : Nat) (token : Token) : Scanner :=
  { s with produced := insertBefore token (s.count - number) s.produced, count := s.count + 1 }

def current (s : Scanner) : Option Candidate :=
  match s.flow with
  | top :: _ => top
  | [] => s.candidate

def setCurrent (s : Scanner) (candidate : Option Candidate) : Scanner :=
  match s.flow with
  | _ :: rest => { s with flow := candidate :: rest }
  | [] => { s with candidate }

/-- Gives the current candidate up, unless it has to be a key. -/
def dropCandidate? (s : Scanner) : Option Scanner :=
  match s.current with
  | some candidate => if candidate.required then none else some (s.setCurrent none)
  | none => some s

/-- Makes the next token a candidate, where one is allowed. -/
def saveCandidate? (s : Scanner) : Option Scanner :=
  if s.keyAllowed then
    let required := !s.inFlow && s.indent == s.position.column
    s.dropCandidate?.map (·.setCurrent (some ⟨s.count, required, s.position⟩))
  else some s

def Candidate.isStale (here : Position) (c : Candidate) : Bool :=
  c.position.line < here.line || c.position.octets + 1024 < here.octets

def lapse (here : Position) (candidate : Option Candidate) : Option Candidate :=
  candidate.filter fun c => !Candidate.isStale here c

/-- Lets stale candidates lapse. -/
def dropStale? (s : Scanner) : Option Scanner :=
  match s.candidate with
  | some candidate =>
    if candidate.required && Candidate.isStale s.position candidate then none
    else some { s with
      candidate := lapse s.position s.candidate, flow := s.flow.map (lapse s.position) }
  | none => some { s with flow := s.flow.map (lapse s.position) }

/-- Opens a block collection at the column, if that is further in than the current one. -/
def openBlock (s : Scanner) (column : Nat) (number : Option Nat) (token : Token) : Scanner :=
  if s.inFlow || column ≤ s.indent then s
  else
    let s := { s with indent := column, outer := s.indent :: s.outer }
    match number with
    | some number => s.emitBefore number token
    | none => s.emit token

/-- Closes block collections until the indentation is at most `column`. -/
def closeBlocks (column : Int) : (outer : List Int) → Scanner → Scanner
  | [], s => if column < s.indent then { s.emit .blockEnd with indent := -1, outer := [] } else s
  | around :: outer, s =>
    if column < s.indent then
      closeBlocks column outer { s.emit .blockEnd with indent := around, outer }
    else s

def closeTo (s : Scanner) (column : Int) : Scanner :=
  if s.inFlow then s else closeBlocks column s.outer s

/-- Passes white space and comments. In block context a new line may start with a key, and a tab
is no white space where one may start. A byte order mark may stand first in a line, and takes a
column. -/
def skipGap (inFlow : Bool) (keyAllowed comment : Bool) (position : Position) :
    List Char → Bool × Position × List Char
  | [] => (keyAllowed, position, [])
  | c :: cs =>
    if isBreak c then skipGap inFlow (keyAllowed || !inFlow) false position.newline cs
    else if comment || c == ' ' || (c == '\t' && (inFlow || !keyAllowed)) then
      skipGap inFlow keyAllowed comment (position.past c) cs
    else if position.column == 0 && c == byteOrderMark then
      skipGap inFlow keyAllowed false (position.past c) cs
    else if c == '#' then skipGap inFlow keyAllowed true (position.past c) cs
    else (keyAllowed, position, c :: cs)

def toNextToken (s : Scanner) : Scanner :=
  let (keyAllowed, position, rest) := skipGap s.inFlow s.keyAllowed false s.position s.rest
  { s with keyAllowed, position, rest }

/-- Passes `n` characters of the line. -/
def skip (s : Scanner) (n : Nat) : Scanner :=
  { s with rest := s.rest.drop n, position := s.position.pastAll (s.rest.take n) }

/-- What comes next up to a space, a tab or a line break. -/
def nextWord (s : Scanner) : List Char := s.rest.takeWhile fun c => !isSpaceOrTab c && !isBreak c

/-- The rest of the line. -/
def restOfLine (s : Scanner) : List Char := s.rest.takeWhile fun c => !isBreak c

/-- Passes what was taken of `piece`, which comes next, where `left` was left of it. -/
def skipTaken (s : Scanner) (piece left : List Char) : Scanner :=
  s.skip (piece.length - left.length)

/-- Ends the stream or a document: closes all block collections. -/
def closeDocument? (s : Scanner) : Option Scanner :=
  (s.closeTo (-1)).dropCandidate?.map fun s => { s with keyAllowed := false }

def scanDirective? (s : Scanner) : Option Scanner := do
  let s ← s.closeDocument?
  let line := s.restOfLine
  let token ← readDirective? (line.drop 1)
  let s := s.skip line.length
  match s.rest with
  | [] => return s.emit token
  | _ :: rest => return { s.emit token with rest, position := s.position.newline }

def scanDocumentMark? (s : Scanner) (token : Token) : Option Scanner :=
  s.closeDocument?.map fun s => (s.skip 3).emit token

def scanFlowStart? (s : Scanner) (token : Token) : Option Scanner := do
  let s ← s.saveCandidate?
  return ({ s with flow := none :: s.flow, keyAllowed := true }.skip 1).emit token

def scanFlowEnd? (s : Scanner) (token : Token) : Option Scanner := do
  let s ← s.dropCandidate?
  return ({ s with flow := s.flow.tail, keyAllowed := false }.skip 1).emit token

def scanFlowEntry? (s : Scanner) : Option Scanner := do
  let s ← s.dropCandidate?
  return ({ s with keyAllowed := true }.skip 1).emit .flowEntry

def scanBlockEntry? (s : Scanner) : Option Scanner := do
  if !s.inFlow && !s.keyAllowed then none
  else
    let s ← (s.openBlock s.position.column none .blockSequenceStart).dropCandidate?
    return ({ s with keyAllowed := true }.skip 1).emit .blockEntry

def scanKey? (s : Scanner) : Option Scanner := do
  if !s.inFlow && !s.keyAllowed then none
  else
    let s ← (s.openBlock s.position.column none .blockMappingStart).dropCandidate?
    return ({ s with keyAllowed := !s.inFlow }.skip 1).emit .key

def scanValue? (s : Scanner) : Option Scanner :=
  match s.current with
  | some candidate =>
    let s := s.emitBefore candidate.number .key
    let s := s.openBlock candidate.position.column (some candidate.number) .blockMappingStart
    let s := { s.setCurrent none with keyAllowed := false }
    some ((s.skip 1).emit .value)
  | none =>
    if !s.inFlow && !s.keyAllowed then none
    else
      let s := s.openBlock s.position.column none .blockMappingStart
      some (({ s with keyAllowed := !s.inFlow }.skip 1).emit .value)

def scanAnchor? (s : Scanner) (token : List Char → Token) : Option Scanner := do
  let s ← s.saveCandidate?
  let word := s.nextWord
  let (name, left) ← readAnchor? (word.drop 1)
  return ({ s with keyAllowed := false }.skipTaken word left).emit (token name)

def scanTag? (s : Scanner) : Option Scanner := do
  let s ← s.saveCandidate?
  let word := s.nextWord
  let (token, left) ← readTag? s.inFlow (word.drop 1)
  return ({ s with keyAllowed := false }.skipTaken word left).emit token

/-- Goes on after a scalar. -/
def pass (s : Scanner) (reading : ScalarReading) : Scanner :=
  { s with rest := reading.rest, position := reading.position }

def scanBlock? (s : Scanner) (folding : Bool) : Option Scanner := do
  let s ← s.dropCandidate?
  let reading ← readBlock folding s.indent (s.skip 1).position (s.rest.drop 1)
  return ({ s with keyAllowed := true }.pass reading).emit (.scalar false reading.text)

def scanQuoted? (s : Scanner) (double : Bool) : Option Scanner := do
  let s ← s.saveCandidate?
  let reading ← readQuoted double .word [] .empty (s.skip 1).position (s.rest.drop 1)
  return ({ s with keyAllowed := false }.pass reading).emit (.scalar false reading.text)

def scanPlain? (s : Scanner) : Option Scanner := do
  let s ← s.saveCandidate?
  let reading ← readPlain s.inFlow (s.indent + 1) [] .empty false s.position s.rest
  return ({ s with keyAllowed := reading.broken }.pass reading).emit (.scalar true reading.text)

def scanStreamEnd? (s : Scanner) : Option Scanner :=
  let position := if s.position.column == 0 then s.position else s.position.newline
  (closeDocument? { s with position }).map fun s => s.emit .streamEnd

/-- Whether a plain scalar may start with `c` before `cs`. -/
def startsPlain (inFlow : Bool) (c : Char) (cs : List Char) : Bool :=
  let next := match cs with
    | [] => false
    | d :: _ => isSpaceOrTab d
  if c == '-' then !next
  else if c == '?' || c == ':' then !inFlow && !atWordEnd cs
  else !(isSpaceOrTab c || isBreak c || ",[]\x7b\x7d#&*!|>'\"%@`".toList.contains c)

/-- Scans the next token, at which the scanner stands. -/
def scanToken? (s : Scanner) : Option Scanner :=
  match s.rest with
  | [] => s.scanStreamEnd?
  | c :: cs =>
    let first := s.position.column == 0
    if first && c == '%' then s.scanDirective?
    else if first && atMark '-' (c :: cs) then s.scanDocumentMark? .documentStart
    else if first && atMark '.' (c :: cs) then s.scanDocumentMark? .documentEnd
    else if c == '[' then s.scanFlowStart? .flowSequenceStart
    else if c == '{' then s.scanFlowStart? .flowMappingStart
    else if c == ']' then s.scanFlowEnd? .flowSequenceEnd
    else if c == '}' then s.scanFlowEnd? .flowMappingEnd
    else if c == ',' then s.scanFlowEntry?
    else if c == '-' && atWordEnd cs then s.scanBlockEntry?
    else if c == '?' && (s.inFlow || atWordEnd cs) then s.scanKey?
    else if c == ':' && (s.inFlow || atWordEnd cs) then s.scanValue?
    else if c == '*' then s.scanAnchor? .alias
    else if c == '&' then s.scanAnchor? .anchor
    else if c == '!' then s.scanTag?
    else if c == '|' && !s.inFlow then s.scanBlock? false
    else if c == '>' && !s.inFlow then s.scanBlock? true
    else if c == '\'' then s.scanQuoted? false
    else if c == '"' then s.scanQuoted? true
    else if startsPlain s.inFlow c cs then s.scanPlain?
    else none

/-- Whether less than `n` characters are left before a block that is not allowed. -/
def isCutWithin (s : Scanner) (n : Nat) : Bool := s.cut && (s.rest.drop (n - 1)).isEmpty

/-- One step: to the next token, past it, and then over the candidates that it made stale. Four
characters are looked at before a token, and one behind it. -/
def step? (s : Scanner) : Option Scanner := do
  let s ← s.toNextToken.dropStale?
  if s.isCutWithin 4 then none
  else
    let s ← (s.closeTo s.position.column).scanToken?
    if s.isCutWithin 1 then none else s.dropStale?

/-- The number of tokens before the first candidate. -/
def releasedCount (s : Scanner) : Nat :=
  (s.candidate :: s.flow).foldl (fun n candidate =>
    match candidate with
    | some candidate => min n candidate.number
    | none => n) s.count

def released (s : Scanner) : List Token := s.produced.reverse.take s.releasedCount

/-- Steps until the end of the stream or a fault. -/
def run : (fuel : Nat) → Scanner → List Token
  | 0, s => s.released
  | fuel + 1, s =>
    match s.step? with
    | none => s.released
    | some next =>
      match next.produced with
      | .streamEnd :: _ => next.produced.reverse
      | _ => run fuel next

end Scanner

/-- The tokens of a text. They end with the end of the stream if the text is well formed, and
before the fault if not. -/
def Token.ofText (text : List Char) : List Token :=
  (Scanner.start text).run (text.length + 1)

end AnnotatedValues.Yaml
