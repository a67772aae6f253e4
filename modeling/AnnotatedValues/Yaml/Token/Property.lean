import AnnotatedValues.Decimal.Text
import AnnotatedValues.Yaml.Character
import AnnotatedValues.Yaml.Token

/-! # Anchors, tags and directives

The tokens made of names and of resource identifiers. Each reader starts behind the indicator.
Anchors and tags are read from a word of the stream and leave the rest of it; directives take a
line. -/
namespace AnnotatedValues.Yaml

open Decimal

/-- Characters that may follow an anchor or alias at once. -/
def endsAnchor : List Char → Bool
  | [] => true
  | c :: cs => atWordEnd (c :: cs) || "?:,]\x7d%@`".toList.contains c

/-- The name of an anchor or alias. -/
def readAnchor? (cs : List Char) : Option (List Char × List Char) :=
  let name := cs.takeWhile isNameChar
  let rest := cs.dropWhile isNameChar
  if name.isEmpty || !endsAnchor rest then none else some (name, rest)

/-- Characters of resource identifiers; in a tag between angle brackets also some punctuation. -/
def isResourceChar (verbatim : Bool) (c : Char) : Bool :=
  isNameChar c || ";/?:@&=+$.%!~*'()".toList.contains c || (verbatim && ",[]".toList.contains c)

/-- The number of octets of an encoded character, by its first octet. -/
def octetCount? (octet : Nat) : Option Nat :=
  if octet < 0x80 then some 1
  else if 0xC0 ≤ octet && octet < 0xE0 then some 2
  else if 0xE0 ≤ octet && octet < 0xF0 then some 3
  else if 0xF0 ≤ octet && octet < 0xF8 then some 4
  else none

/-- The least character that needs so many octets. -/
def leastOfOctets : Nat → Nat
  | 2 => 0x80
  | 3 => 0x800
  | 4 => 0x10000
  | _ => 0

/-- The payload of a first octet. -/
def leadBits (count octet : Nat) : Nat :=
  if count == 1 then octet else octet % Nat.pow 2 (7 - count)

/-- An encoded character, or `none` if its octets encode none. -/
def charOfOctets (count value : Nat) : Option Char :=
  if leastOfOctets count ≤ value && value.isValidChar then some (Char.ofNat value) else none

/-- Reads a resource identifier on. After a percent-escaped octet that starts a longer sequence,
`pending` holds its length, the octets to come and the bits read. -/
def readResource (verbatim : Bool) (text : TagText) (pending : Option (Nat × Nat × Nat)) :
    List Char → Option (TagText × List Char)
  | '%' :: high :: low :: cs =>
    match digitValue? 16 high, digitValue? 16 low with
    | some h, some l =>
      let octet := h * 16 + l
      match pending with
      | none =>
        match octetCount? octet with
        | none => none
        | some count =>
          let bits := leadBits count octet
          if count == 1 then readResource verbatim (charOfOctets 1 bits :: text) none cs
          else readResource verbatim text (some (count, count - 1, bits)) cs
      | some (count, left, bits) =>
        if octet / 64 == 2 then
          let bits := bits * 64 + octet % 64
          if left ≤ 1 then readResource verbatim (charOfOctets count bits :: text) none cs
          else readResource verbatim text (some (count, left - 1, bits)) cs
        else none
    | _, _ => none
  | [] => if pending.isNone then some (text.reverse, []) else none
  | c :: cs =>
    if c == '%' || pending.isSome then none
    else if isResourceChar verbatim c then readResource verbatim (some c :: text) none cs
    else some (text.reverse, c :: cs)

/-- A resource identifier of at least one character. -/
def readResource? (verbatim : Bool) (cs : List Char) : Option (TagText × List Char) :=
  match readResource verbatim [] none cs with
  | some ([], _) => none
  | other => other

/-- A tag may be followed by white space, and in a flow collection by a comma. -/
def endsTag (flow : Bool) : List Char → Bool
  | [] => true
  | c :: cs => atWordEnd (c :: cs) || (flow && c == ',')

/-- A tag from behind its exclamation mark: `<resource>`, `handle!suffix`, `suffix`, or nothing, in
which case the mark itself is the tag. -/
def readTag? (flow : Bool) (cs : List Char) : Option (Token × List Char) := do
  let (token, rest) ← match cs with
    | '<' :: cs =>
      match readResource? true cs with
      | some (text, '>' :: rest) => some (Token.tag [] text.beforeNul, rest)
      | _ => none
    | cs =>
      let name := cs.takeWhile isNameChar
      match cs.dropWhile isNameChar with
      | '!' :: rest =>
        match readResource? false rest with
        | some (suffix, rest) => some (Token.tag ('!' :: name ++ ['!']) suffix.beforeNul, rest)
        | none => none
      | rest =>
        match readResource false [] none rest with
        | some (more, rest) =>
          let suffix := TagText.beforeNul (name.map some ++ more)
          if suffix.isEmpty then some (Token.tag [] [some '!'], rest)
          else some (Token.tag ['!'] suffix, rest)
        | none => none
  if endsTag flow rest then some (token, rest) else none

/-- A number of a version: one to nine digits. -/
def readVersionNumber? (cs : List Char) : Option (Nat × List Char) :=
  let digits := cs.takeWhile Char.isDigit
  if digits.length ≤ 9 then (readNat? 10 digits).map fun n => (n, cs.dropWhile Char.isDigit)
  else none

/-- The handle that a tag directive declares: `!`, `!!` or `!name!`. -/
def readHandle? : List Char → Option (List Char × List Char)
  | '!' :: cs =>
    let name := cs.takeWhile isNameChar
    match cs.dropWhile isNameChar with
    | '!' :: rest => some ('!' :: name ++ ['!'], rest)
    | rest => if name.isEmpty then some (['!'], rest) else none
  | _ => none

/-- The parameters of a directive. -/
def readParameters? (name : List Char) (cs : List Char) : Option (Token × List Char) :=
  let cs := cs.dropWhile isSpaceOrTab
  if name == "YAML".toList then do
    let (major, rest) ← readVersionNumber? cs
    match rest with
    | '.' :: rest =>
      let (minor, rest) ← readVersionNumber? rest
      return (.version major minor, rest)
    | _ => none
  else if name == "TAG".toList then do
    let (handle, rest) ← readHandle? cs
    let spaced := rest.dropWhile isSpaceOrTab
    if spaced.length == rest.length then none
    else
      let (lead, rest) ← readResource? true spaced
      if atWordEnd rest then return (.tagDirective handle lead.beforeNul, rest) else none
  else none

/-- The directive that a line is, from behind its percent sign. -/
def readDirective? (cs : List Char) : Option Token := do
  let name := cs.takeWhile isNameChar
  let rest := cs.dropWhile isNameChar
  if name.isEmpty || !atWordEnd rest then none
  else
    let (token, rest) ← readParameters? name rest
    match rest.dropWhile isSpaceOrTab with
    | [] | '#' :: _ => return token
    | _ => none

end AnnotatedValues.Yaml
