import AnnotatedValues.Error
import AnnotatedValues.Table.Markdown

/-! # The parameters section of a README

The section goes from the first heading `Parameters` of depth two or more to the next heading that
is no deeper. Its body is replaced by tables; all other lines stay. -/
namespace AnnotatedValues.Readme

open Text

def isHash (c : Char) : Bool := c == '#'

/-- The number of hashes in front of a line and what follows them. -/
def hashes (line : List Char) : Nat × List Char :=
  ((line.takeWhile isHash).length, line.dropWhile isHash)

/-- The depth of the heading that a line is. -/
def headingDepth? (line : List Char) : Option Nat :=
  match hashes line with
  | (depth, c :: _) => if 1 ≤ depth && isBlank c then some depth else none
  | (_, []) => none

/-- The depth of the heading of a parameters section. -/
def parametersDepth? (line : List Char) : Option Nat :=
  match (hashes line).2 with
  | c :: cs =>
    if 2 ≤ (hashes line).1 && isBlank c then
      match dropLead? "Parameters".toList (trimStart cs) with
      | some rest => if rest.all isBlank then some (hashes line).1 else none
      | none => none
    else none
  | [] => none

/-- Whether a line ends a section whose heading has the given depth. -/
def endsSection (depth : Nat) (line : List Char) : Bool :=
  match headingDepth? line with
  | some d => decide (d ≤ depth)
  | none => false

/-- A text around the body of its parameters section. -/
structure Parts where
  /-- The lines up to the heading of the section. -/
  before : List (List Char)
  depth : Nat
  /-- The lines from the heading that ends the section. -/
  after : List (List Char)
  deriving DecidableEq, Repr

def split? : List (List Char) → Option Parts
  | [] => none
  | line :: lines =>
    match parametersDepth? line with
    | some depth => some ⟨[line], depth, lines.dropWhile fun l => !endsSection depth l⟩
    | none => (split? lines).map fun parts => { parts with before := line :: parts.before }

/-- The text without line feeds at its end. -/
def dropFinalFeeds (cs : List Char) : List Char :=
  (cs.reverse.dropWhile (· == '\n')).reverse

def bodyLines (depth : Nat) (tables : List Table) : List (List Char) :=
  match dropFinalFeeds (Table.markdown depth tables) with
  | [] => []
  | body => lines body

/-- The lines with the tables in place of the body of the section. A line feed at the end of the
text stays. -/
def Parts.fill (parts : Parts) (endsInFeed : Bool) (tables : List Table) : List (List Char) :=
  parts.before ++ bodyLines parts.depth tables ++
    if !parts.after.isEmpty then [] :: parts.after else if endsInFeed then [[]] else []

/-- The text with the tables in its parameters section. -/
def update (readme : String) (tables : List Table) : Except Error String :=
  match split? (lines readme.toList) with
  | some parts =>
    let endsInFeed := readme.toList.getLast? == some '\n'
    .ok (String.ofList (joined ['\n'] (parts.fill endsInFeed tables)))
  | none => .error .noParametersSection

end AnnotatedValues.Readme
