import AnnotatedValues.Yaml.Event
import AnnotatedValues.Yaml.Plain
import AnnotatedValues.Yaml.Token.Stream

/-! # Documents from YAML text

A text denotes a document if it holds at most one. Aliases stand for what their anchors name, keys
are texts, and of two equal keys the later gives the value. A failure is located by the path to the
innermost value in which it was found; where the fault lies in a key, or where a mapping
should go on, the last segment is unknown. -/
namespace AnnotatedValues.Yaml

/-- A step from a value to a part of it. -/
inductive Segment where
  | key (name : String)
  | index (i : Nat)
  | unknown
  deriving DecidableEq, Repr, Inhabited

namespace Segment

def text : Segment → List Char
  | .key name => name.toList
  | .index i => '[' :: Decimal.natText i ++ [']']
  | .unknown => ['?']

/-- Whether a point stands before the segment. -/
def isPointed : Segment → Bool
  | .index _ => false
  | _ => true

def tailText : List Segment → List Char
  | [] => []
  | s :: segments => (if s.isPointed then ['.'] else []) ++ s.text ++ tailText segments

end Segment

/-- A path from the root of a document. -/
abbrev Path := List Segment

/-- Keys are separated by points, indices stand in brackets; the root is a point. -/
def Path.text : Path → List Char
  | [] => ['.']
  | s :: segments => s.text ++ Segment.tailText segments

/-- An event within a document, aliases and anchors replaced by numbers. -/
inductive Item where
  | alias (target : Nat)
  | scalar (tag : Option TagText) (plain : Bool) (text : List Char)
  | sequenceStart (tag : Option TagText)
  | sequenceEnd
  | mappingStart (tag : Option TagText)
  | mappingEnd
  deriving DecidableEq, Repr, Inhabited

/-- The items of one document and the places in them that aliases refer to. -/
structure Content where
  /-- Last first. -/
  items : List Item
  /-- The numbers that the names of anchors stand for now. -/
  names : List (List Char × Nat)
  /-- The place of each number, as a count of the items before it. -/
  places : List (Nat × Nat)
  deriving Repr, Inhabited

namespace Content

def empty : Content := ⟨[], [], []⟩

def add (c : Content) (item : Item) : Content := { c with items := item :: c.items }

def setName (names : List (List Char × Nat)) (name : List Char) (number : Nat) :
    List (List Char × Nat) :=
  (name, number) :: names.filter fun n => n.1 != name

/-- An anchor takes as its number the count of the names so far, the name itself included if it
is used again, and the last anchor with a number decides what the number refers to. -/
def addAnchored (c : Content) (anchor : Option (List Char)) (item : Item) : Content :=
  match anchor with
  | none => c.add item
  | some name =>
    let number := c.names.length
    ⟨item :: c.items, setName c.names name number, (number, c.items.length) :: c.places⟩

/-- The content up to the end of the document, and the events after it. Without an end of the
document the second part is `none`. -/
def ofEvents (c : Content) : List Event → Content × Option (List Event)
  | [] => (c, none)
  | .alias name :: events =>
    match c.names.lookup name with
    | some number => ofEvents (c.add (.alias number)) events
    | none => (c, none)
  | .scalar anchor tag plain text :: events =>
    ofEvents (c.addAnchored anchor (.scalar tag plain text)) events
  | .sequenceStart anchor tag :: events =>
    ofEvents (c.addAnchored anchor (.sequenceStart tag)) events
  | .mappingStart anchor tag :: events => ofEvents (c.addAnchored anchor (.mappingStart tag)) events
  | .sequenceEnd :: events => ofEvents (c.add .sequenceEnd) events
  | .mappingEnd :: events => ofEvents (c.add .mappingEnd) events
  | .documentEnd :: events => (c, some events)
  | .streamEnd :: _ => (c, none)

end Content

/-- The tag of the core schema with the given name. -/
def coreTag (name : String) : TagText := TagText.ofString ("tag:yaml.org,2002:" ++ name)

/-- Tags of the application's own, which no value here can have. The exclamation mark by itself is
one of them. -/
def isLocalTag : Option TagText → Bool
  | some (some '!' :: name) => name.all Option.isSome
  | _ => false

/-- The value of a scalar, if it can have one. -/
def scalarValue? (tag : Option TagText) (plain : Bool) (text : List Char) : Option Document :=
  let string : Option Document := some (.string (String.ofList text))
  match tag with
  | none => if plain then (Plain.ofText text).document? text else string
  | some tag =>
    if isLocalTag (some tag) then none
    else if tag == coreTag "bool" then (Plain.bool? text).map .bool
    else if tag == coreTag "int" then (Plain.int? text).bind (Plain.document? text)
    else if tag == coreTag "float" then (Plain.float? text).bind (Plain.document? text)
    else if tag == coreTag "null" then if Plain.isNull text then some .null else none
    else if tag.head? == some (some '!') && plain then (Plain.ofText text).document? text
    else string

/-- What values are read from: the items of the document and its numbered places. -/
structure Source where
  items : List Item
  places : List (Nat × Nat)

/-- The items from the place that an alias refers to. -/
def Source.target? (s : Source) (number : Nat) : Option (List Item) :=
  (s.places.lookup number).map s.items.drop

/-- How many aliases may be followed. -/
def Source.jumpLimit (s : Source) : Nat := 100 * s.items.length

/-- A result with the items after it and the number of aliases followed so far. -/
structure Read (α : Type) where
  result : α
  rest : List Item
  jumps : Nat

/-- The collections of a document nest at most this deep. -/
def depthLimit : Nat := 128

/-- A fault in the part to which `segment` leads. -/
def within {α : Type} (segment : Segment) (r : Except Path α) : Except Path α :=
  r.mapError (segment :: ·)

/-- The text of a key: a scalar or an alias of one. -/
def readKey (source : Source) (jumps : Nat) : (items : List Item) → Except Path (Read String)
  | .scalar _ _ text :: rest => .ok ⟨String.ofList text, rest, jumps⟩
  | .alias number :: rest =>
    if source.jumpLimit < jumps + 1 then .error [.unknown]
    else match source.target? number with
      | some (.scalar _ _ text :: _) => .ok ⟨String.ofList text, rest, jumps + 1⟩
      | _ => .error [.unknown]
  | _ => .error [.unknown]

mutual

/-- Reads a value; `depth` more collections may be open in it. -/
def readValue (source : Source) : (fuel depth jumps : Nat) → List Item → Except Path (Read Document)
  | 0, _, _, _ => .error []
  | fuel + 1, depth, jumps, items =>
    match items with
    | .scalar tag plain text :: rest =>
      match scalarValue? tag plain text with
      | some value => .ok ⟨value, rest, jumps⟩
      | none => .error []
    | .alias number :: rest =>
      if source.jumpLimit < jumps + 1 then .error []
      else match source.target? number with
        | some target => do
          let read ← readValue source fuel depth (jumps + 1) target
          return { read with rest }
        | none => .error []
    | .sequenceStart tag :: rest =>
      if isLocalTag tag || depth == 0 then .error []
      else do
        let read ← readItems source fuel (depth - 1) jumps 0 rest
        return { read with result := .array read.result }
    | .mappingStart tag :: rest =>
      if isLocalTag tag || depth == 0 then .error []
      else do
        let read ← readEntries source fuel (depth - 1) jumps [] rest
        return { read with result := .object read.result }
    | _ => .error []

/-- Reads the items of a sequence from number `index` on. -/
def readItems (source : Source) :
    (fuel depth jumps index : Nat) → List Item → Except Path (Read (List Document))
  | 0, _, _, _, _ => .error []
  | fuel + 1, depth, jumps, index, items =>
    match items with
    | [] => .error []
    | .sequenceEnd :: rest => .ok ⟨[], rest, jumps⟩
    | items => do
      let first ← within (.index index) (readValue source fuel depth jumps items)
      let read ← readItems source fuel depth first.jumps (index + 1) first.rest
      return { read with result := first.result :: read.result }

/-- Reads the entries of a mapping, after those in `soFar`. -/
def readEntries (source : Source) :
    (fuel depth jumps : Nat) → (soFar : List (String × Document)) → List Item →
      Except Path (Read (List (String × Document)))
  | 0, _, _, _, _ => .error []
  | fuel + 1, depth, jumps, soFar, items =>
    match items with
    | .mappingEnd :: rest => .ok ⟨soFar, rest, jumps⟩
    | items => do
      let key ← readKey source jumps items
      let value ← within (.key key.result) (readValue source fuel depth key.jumps key.rest)
      let soFar := Document.put soFar key.result value.result
      readEntries source fuel depth value.jumps soFar value.rest

end

/-- The document that a content without a fault denotes; an empty stream denotes null. The fuel
covers a chain of open collections, each of which may pass over all the items. -/
def Content.value (c : Content) : Except Path Document :=
  let source : Source := ⟨c.items.reverse, c.places⟩
  (readValue source ((depthLimit + 4) * (2 * source.items.length + 8)) depthLimit 0
    source.items).map (·.result)

/-- Reads the only document of a stream of events. -/
def documentOfEvents (events : List Event) : Except Path Document :=
  if events == [.streamEnd] then .ok .null
  else
    let (content, after?) := Content.ofEvents .empty events
    match content.value with
    | .error path => .error path
    | .ok document => if after? == some [.streamEnd] then .ok document else .error []

end AnnotatedValues.Yaml

namespace AnnotatedValues.Document

open Yaml

/-- The document that a YAML text denotes, or the path to its first fault. -/
def ofYaml (text : List Char) : Except Path Document :=
  documentOfEvents (Event.ofTokens (Token.ofText text))

end AnnotatedValues.Document
