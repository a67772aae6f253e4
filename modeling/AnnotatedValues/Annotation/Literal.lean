import AnnotatedValues.Text.Blank

/-! # Default literals and braced blocks

A literal is a string in double or single quotes, an object or array in balanced brackets, or a run
of characters without a blank. A block is what stands between a brace and the bracket that balances
it. Braces and square brackets count alike, and not at all inside double quotes. -/
namespace AnnotatedValues.Annotation

open Text

/-- Where a character stands in respect of double quotes. -/
inductive Quoting where
  | outside
  | inside
  | escaped
  deriving DecidableEq, Repr

def isOpening (c : Char) : Bool := c == '{' || c == '['

def isClosing (c : Char) : Bool := c == '}' || c == ']'

/-- A split with one more character in front. -/
def prepend (c : Char) : List Char × List Char → List Char × List Char
  | (taken, rest) => (c :: taken, rest)

/-- The quoting behind `c`, which is no bracket outside of quotes. -/
def Quoting.next (c : Char) : Quoting → Quoting
  | .escaped => .inside
  | .inside => if c == '\\' then .escaped else if c == '"' then .outside else .inside
  | .outside => if c == '"' then .inside else .outside

/-- Splits behind the bracket that closes the last of `depth` open ones. -/
def splitBalanced? (depth : Nat) (quoting : Quoting) : List Char → Option (List Char × List Char)
  | [] => none
  | c :: cs =>
    if quoting = .outside && isOpening c then
      (splitBalanced? (depth + 1) .outside cs).map (prepend c)
    else if quoting = .outside && isClosing c then
      match depth with
      | 0 => none
      | 1 => some ([c], cs)
      | depth + 1 => (splitBalanced? depth .outside cs).map (prepend c)
    else (splitBalanced? depth (quoting.next c) cs).map (prepend c)

theorem eq_append_of_splitBalanced? {depth : Nat} {quoting : Quoting} {cs taken rest : List Char}
    (h : splitBalanced? depth quoting cs = some (taken, rest)) : cs = taken ++ rest := by
  fun_induction splitBalanced? depth quoting cs generalizing taken rest with
  | case1 => cases h
  | case2 depth quoting c cs _ ih =>
    obtain ⟨⟨t, r⟩, found, pair⟩ := Option.map_eq_some_iff.mp h
    cases pair; rw [ih found]; rfl
  | case3 => cases h
  | case4 => cases h; rfl
  | case5 quoting c cs _ _ depth _ ih =>
    obtain ⟨⟨t, r⟩, found, pair⟩ := Option.map_eq_some_iff.mp h
    cases pair; rw [ih found]; rfl
  | case6 depth quoting c cs _ _ ih =>
    obtain ⟨⟨t, r⟩, found, pair⟩ := Option.map_eq_some_iff.mp h
    cases pair; rw [ih found]; rfl

/-- Splits behind the first `quote`. -/
def splitBehind? (quote : Char) : List Char → Option (List Char × List Char)
  | [] => none
  | c :: cs =>
    if c == quote then some ([c], cs)
    else (splitBehind? quote cs).map (prepend c)

/-- A literal at the start of the text, and the rest. -/
def takeLiteral? : List Char → Option (List Char × List Char)
  | [] => none
  | c :: cs =>
    if c == '"' || c == '\'' then
      (splitBehind? c cs).map (prepend c)
    else if isOpening c then splitBalanced? 0 .outside (c :: cs)
    else if isBlank c then none
    else some ((c :: cs).takeWhile fun c => !isBlank c, (c :: cs).dropWhile fun c => !isBlank c)

/-- The inside of a block at the start of the text, and the rest. -/
def takeBraced? : List Char → Option (List Char × List Char)
  | '{' :: cs => (splitBalanced? 1 .outside cs).map fun (taken, rest) => (taken.dropLast, rest)
  | _ => none

def isBetween (quote : Char) (cs : List Char) : Bool :=
  2 ≤ cs.length && cs.head? == some quote && cs.getLast? == some quote

/-- The text without blanks around it and then without one pair of equal quotes around it. -/
def unquote (cs : List Char) : List Char :=
  let cs := trim cs
  if isBetween '"' cs || isBetween '\'' cs then cs.tail.dropLast else cs

end AnnotatedValues.Annotation
