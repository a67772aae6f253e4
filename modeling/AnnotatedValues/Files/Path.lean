import AnnotatedValues.Text.Blank

/-! # Paths

The pieces of a path stand between slashes; a path that starts with a slash has an empty first
piece. Any other empty piece is idle, and so is a single point that is not the first piece. -/
namespace AnnotatedValues.Path

open Text

abbrev Piece := List Char

def pieces (path : String) : List Piece := splitBy (· == '/') path.toList

def isIdle (piece : Piece) : Bool := piece.isEmpty || piece == ['.']

/-- Pieces in reverse order, without the idle ones at the head. -/
def dropIdle : List Piece → List Piece
  | [] => []
  | [piece] => [piece]
  | piece :: more :: rest =>
    if isIdle piece then dropIdle (more :: rest) else piece :: more :: rest

/-- The pieces of a path in reverse order. -/
def reversed (path : String) : List Piece := dropIdle (pieces path).reverse

/-- The path with the given pieces, in reverse order. -/
def text : List Piece → String
  | [[]] => "/"
  | pieces => String.ofList (joined ['/'] pieces.reverse)

/-- The pieces, in reverse order, of the directory that a path is in; none for a single name. -/
def parent (path : String) : List Piece :=
  match reversed path with
  | _ :: piece :: rest => dropIdle (piece :: rest)
  | _ => []

/-- The path of a name in a directory. -/
def child (path name : String) : String :=
  if path.toList.getLast? == some '/' then path ++ name else path ++ "/" ++ name

/-- Whether a path leads to the working directory by its text alone. -/
def isCurrent (path : String) : Bool := reversed path == [['.']]

end AnnotatedValues.Path
