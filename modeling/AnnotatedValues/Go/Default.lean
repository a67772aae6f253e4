import AnnotatedValues.DefaultValue
import AnnotatedValues.Document.Json

/-! # Defaults and choices in markers

Defaults are composite literals without type names, in which arrays stand in braces and the entries
of objects are sorted; choices are JSON strings with semicolons between them. -/
namespace AnnotatedValues.Go

def quoted (s : String) : String := String.ofList (Json.quoted s)

mutual

/-- A composite literal: objects with sorted keys, arrays, both in braces. -/
def literalText : Document → List Char
  | .null => "nil".toList
  | .bool b => Json.compact (.bool b)
  | .number n => Json.compact (.number n)
  | .string s => Json.compact (.string s)
  | .array items => '{' :: Text.joined [','] (literalItems items) ++ ['}']
  | .object entries =>
    let parts := (Document.sortEntries (literalEntries entries)).map fun e =>
      Json.quoted e.1 ++ ':' :: e.2
    '{' :: Text.joined [','] parts ++ ['}']
termination_by structural d => d

def literalItems : List Document → List (List Char)
  | [] => []
  | item :: items => literalText item :: literalItems items
termination_by structural items => items

def literalEntries : List (String × Document) → List (String × List Char)
  | [] => []
  | (key, value) :: entries => (key, literalText value) :: literalEntries entries
termination_by structural entries => entries

end

/-- The value of a default marker. -/
def defaultText : DefaultValue → String
  | .string s => quoted s
  | .document d => String.ofList (literalText d)
  | .raw text => text

def choicesText (choices : List String) : String := ";".intercalate (choices.map quoted)

end AnnotatedValues.Go
