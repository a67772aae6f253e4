import AnnotatedValues.Text.CaseTable
import AnnotatedValues.Text.Word

/-! # Upper and lower case

Full case mapping: a character may become several, and a capital sigma becomes a final small sigma
at the end of a word. Characters below 128 are mapped without the tables. -/
namespace AnnotatedValues.Text

/-- The code point that the first run listing `n` assigns to it, or `n` itself. -/
def mapByRuns (n : Nat) : List CaseRun → Nat
  | [] => n
  | run :: runs =>
    if run.first ≤ n && n ≤ run.last && (n - run.first) % run.step == 0 then
      (n + run.offset).toNat
    else mapByRuns n runs

/-- The capital I with a dot above is the one character whose lower case has two characters. -/
def lowerChar (c : Char) : List Char :=
  if c.toNat < 128 then [c.toLower]
  else if c.toNat == 0x130 then ['i', '\u0307']
  else [Char.ofNat (mapByRuns c.toNat lowerRuns)]

def upperChar (c : Char) : List Char :=
  if c.toNat < 128 then [c.toUpper]
  else match upperSequences.lookup c.toNat with
    | some sequence => sequence.map Char.ofNat
    | none => [Char.ofNat (mapByRuns c.toNat upperRuns)]

def isCased (c : Char) : Bool :=
  if c.toNat < 128 then c.isAlpha else inRanges c.toNat casedRanges

/-- Case-ignorable characters. -/
def isIgnorable (c : Char) : Bool :=
  if c.toNat < 128 then "'.:^`".toList.contains c else inRanges c.toNat ignorableRanges

/-- Whether the first character that is not case-ignorable is cased. -/
def casedAhead (cs : List Char) : Bool :=
  match cs.dropWhile isIgnorable with
  | c :: _ => isCased c
  | [] => false

/-- Lower case of a text whose preceding characters, last first, are `before`. A sigma that ends a
word of cased characters takes its final form. -/
def lowerFrom (before : List Char) : List Char → List Char
  | [] => []
  | c :: cs =>
    (if c == 'Σ' then (if casedAhead before && !casedAhead cs then ['ς'] else ['σ'])
      else lowerChar c) ++ lowerFrom (c :: before) cs

def lower (cs : List Char) : List Char := lowerFrom [] cs

/-- The text with its first character in upper case. -/
def capitalized : List Char → List Char
  | [] => []
  | c :: cs => upperChar c ++ cs

end AnnotatedValues.Text
