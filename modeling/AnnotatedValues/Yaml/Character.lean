/-! # Characters of YAML streams

The character classes of the token rules, and the form in which a stream is scanned: every line
break that reads as a line feed is one line feed, so that a break is always a single character. A
stream is taken up in blocks, none of which may have a character that is not allowed. -/
namespace AnnotatedValues.Yaml

/-- Characters that may stand in a stream. -/
def isAllowed (c : Char) : Bool :=
  let n := c.toNat
  n == 0x09 || n == 0x0A || n == 0x0D || (0x20 ≤ n && n ≤ 0x7E) || n == 0x85 ||
    (0xA0 ≤ n && n ≤ 0xD7FF) || (0xE000 ≤ n && n ≤ 0xFFFD) || 0x10000 ≤ n

/-- The character that may stand at the start of a line and says nothing there. -/
def byteOrderMark : Char := '\ufeff'

def isSpaceOrTab (c : Char) : Bool := c == ' ' || c == '\t'

/-- Line breaks: line feed, carriage return, next line, line separator, paragraph separator. -/
def isBreak (c : Char) : Bool :=
  c == '\n' || c == '\r' || c == '\x85' || c == '\u2028' || c == '\u2029'

/-- Characters of anchors, tag handles and directive names. -/
def isNameChar (c : Char) : Bool := c.isAlphanum || c == '_' || c == '-'

/-- Nothing, a space, a tab or a line break comes next. -/
def atWordEnd : List Char → Bool
  | [] => true
  | c :: _ => isSpaceOrTab c || isBreak c

/-- Three times the mark, and then the end of a word. -/
def atMark (mark : Char) : List Char → Bool
  | a :: b :: c :: rest => a == mark && b == mark && c == mark && atWordEnd rest
  | _ => false

/-- Three dashes or three points as a word of their own: they delimit documents. -/
def atDocumentMark (cs : List Char) : Bool := atMark '-' cs || atMark '.' cs

/-- Carriage returns, alone or before a line feed, and next-line characters as line feeds. -/
def unifyBreaks : List Char → List Char
  | [] => []
  | '\r' :: '\n' :: cs => '\n' :: unifyBreaks cs
  | c :: cs => (if c == '\r' || c == '\x85' then '\n' else c) :: unifyBreaks cs

/-- The most octets that a block of a stream has. -/
def blockSize : Nat := 16384

/-- The blocks of a stream behind the characters of `block`, the last of them first, which have
`size` octets. A block takes as many whole characters as it has room for. -/
def blocksFrom (block : List Char) (size : Nat) : List Char → List (List Char)
  | [] => [block.reverse]
  | c :: cs =>
    if blockSize < size + c.utf8Size then block.reverse :: blocksFrom [c] c.utf8Size cs
    else blocksFrom (c :: block) (size + c.utf8Size) cs

theorem flatten_blocksFrom (block : List Char) (size : Nat) (cs : List Char) :
    (blocksFrom block size cs).flatten = block.reverse ++ cs := by
  fun_induction blocksFrom block size cs with
  | case1 => simp
  | case2 block size c cs _ ih => simp [ih]
  | case3 block size c cs _ ih => simp [ih]

/-- The blocks before the first one with a character that is not allowed, and whether there is
such a block. -/
def allowedPart (text : List Char) : List Char × Bool :=
  let blocks := blocksFrom [] 0 text
  ((blocks.takeWhile (·.all isAllowed)).flatten, blocks.any fun block => !block.all isAllowed)

/-- A place in the stream. -/
structure Position where
  line : Nat
  column : Nat
  /-- The octets of the characters before it in its line. -/
  octets : Nat
  deriving DecidableEq, Repr, Inhabited

namespace Position

def start : Position := ⟨0, 0, 0⟩

/-- The place behind `c`, which is no line break. -/
def past (p : Position) (c : Char) : Position := ⟨p.line, p.column + 1, p.octets + c.utf8Size⟩

/-- The place behind characters of the same line. -/
def pastAll (p : Position) (cs : List Char) : Position := cs.foldl past p

def newline (p : Position) : Position := ⟨p.line + 1, 0, 0⟩

end Position

end AnnotatedValues.Yaml
