/-! # Tokens of YAML streams

The punctuation and the scalars of a stream. The structure that indentation expresses has tokens
of its own: the start of a block sequence or mapping, and its end. -/
namespace AnnotatedValues.Yaml

/-- A tag's text. A percent-escaped sequence of octets that encodes no character is `none`. -/
abbrev TagText := List (Option Char)

def TagText.ofString (s : String) : TagText := s.toList.map some

/-- What comes before the first NUL, which ends a text of a tag wherever it stands. -/
def TagText.beforeNul (text : TagText) : TagText := text.takeWhile (· != some '\x00')

inductive Token where
  | streamEnd
  | version (major minor : Nat)
  | tagDirective (handle : List Char) (lead : TagText)
  | documentStart
  | documentEnd
  | blockSequenceStart
  | blockMappingStart
  | blockEnd
  | flowSequenceStart
  | flowSequenceEnd
  | flowMappingStart
  | flowMappingEnd
  | blockEntry
  | flowEntry
  | key
  | value
  | alias (name : List Char)
  | anchor (name : List Char)
  | tag (handle : List Char) (suffix : TagText)
  | scalar (plain : Bool) (text : List Char)
  deriving DecidableEq, Repr, Inhabited

end AnnotatedValues.Yaml
