import AnnotatedValues.Yaml.Token

/-! # Events of YAML streams

The grammar of a stream as a machine over its tokens: it keeps what it expects next and what
comes after that, and turns tokens into a walk through the nodes of the documents. Missing nodes
are empty plain scalars. Where the grammar is broken the events stop. -/
namespace AnnotatedValues.Yaml

inductive Event where
  | alias (name : List Char)
  | scalar (anchor : Option (List Char)) (tag : Option TagText) (plain : Bool) (text : List Char)
  | sequenceStart (anchor : Option (List Char)) (tag : Option TagText)
  | sequenceEnd
  | mappingStart (anchor : Option (List Char)) (tag : Option TagText)
  | mappingEnd
  | documentEnd
  | streamEnd
  deriving DecidableEq, Repr, Inhabited

/-- What the grammar expects. -/
inductive Expected where
  /-- A document; only the first may do without a mark. -/
  | document (bare : Bool)
  | content
  | documentEnd
  | node
  | blockEntry
  | indentlessEntry
  | blockKey
  | blockValue
  | flowEntry (first : Bool)
  | pairKey
  | pairValue
  | pairEnd
  | flowKey (first : Bool)
  | flowValue
  | flowNoValue
  | nothing
  deriving DecidableEq, Repr, Inhabited

structure Grammar where
  expected : Expected
  /-- What is expected after that, innermost first. -/
  later : List Expected
  /-- What the tag handles of the document stand for. -/
  handles : List (List Char × TagText)
  tokens : List Token
  deriving Repr, Inhabited

namespace Grammar

def start (tokens : List Token) : Grammar := ⟨.document true, [], [], tokens⟩

def expect (g : Grammar) (expected : Expected) : Grammar := { g with expected }

/-- Goes on with what is expected later. -/
def leave (g : Grammar) : Grammar :=
  match g.later with
  | expected :: later => { g with expected, later }
  | [] => { g with expected := .nothing }

def afterwards (g : Grammar) (expected : Expected) : Grammar :=
  { g with later := expected :: g.later }

def pass (g : Grammar) : Grammar := { g with tokens := g.tokens.tail }

def emptyScalar : Event := .scalar none none true []

/-- The tag that a handle and a suffix make; a handle must have been declared. -/
def resolveTag? (g : Grammar) (handle : List Char) (suffix : TagText) : Option TagText :=
  if handle.isEmpty then some suffix else (g.handles.lookup handle).map (· ++ suffix)

/-- Anchor and tag before a node, in either order. -/
structure Properties where
  anchor : Option (List Char)
  tag : Option TagText

def properties? (g : Grammar) : Option (Properties × Grammar) :=
  match g.tokens with
  | .anchor name :: .tag handle suffix :: tokens =>
    (g.resolveTag? handle suffix).map fun tag => (⟨some name, some tag⟩, { g with tokens })
  | .anchor name :: tokens => some (⟨some name, none⟩, { g with tokens })
  | .tag handle suffix :: .anchor name :: tokens =>
    (g.resolveTag? handle suffix).map fun tag => (⟨some name, some tag⟩, { g with tokens })
  | .tag handle suffix :: tokens =>
    (g.resolveTag? handle suffix).map fun tag => (⟨none, some tag⟩, { g with tokens })
  | _ => some (⟨none, none⟩, g)

/-- The node that starts at the next token. Block collections may start only where `block`, and a
sequence without indentation of its own only where `indentless`. -/
def node? (g : Grammar) (block indentless : Bool) : Option (Event × Grammar) :=
  match g.tokens with
  | .alias name :: _ => some (.alias name, g.pass.leave)
  | _ =>
    match g.properties? with
    | none => none
    | some (⟨anchor, tag⟩, g) =>
      match g.tokens with
      | .scalar plain text :: _ => some (.scalar anchor tag plain text, g.pass.leave)
      | .flowSequenceStart :: _ => some (.sequenceStart anchor tag, g.pass.expect (.flowEntry true))
      | .flowMappingStart :: _ => some (.mappingStart anchor tag, g.pass.expect (.flowKey true))
      | token :: _ =>
        if token == .blockEntry && indentless then
          some (.sequenceStart anchor tag, g.expect .indentlessEntry)
        else if token == .blockSequenceStart && block then
          some (.sequenceStart anchor tag, g.pass.expect .blockEntry)
        else if token == .blockMappingStart && block then
          some (.mappingStart anchor tag, g.pass.expect .blockKey)
        else if anchor.isSome || tag.isSome then
          some (.scalar anchor tag true [], g.leave)
        else none
      | [] => none

/-- The node at the next token, unless that token is one of `ends`: then an empty scalar. In either
case `after` comes next. -/
def nodeUnless? (g : Grammar) (ends : List Token) (after : Expected) (block indentless : Bool) :
    Option (Event × Grammar) :=
  match g.tokens with
  | token :: _ =>
    if ends.contains token then some (emptyScalar, g.expect after)
    else (g.afterwards after).node? block indentless
  | [] => none

/-- The handles that need no declaration. -/
def commonHandles : List (List Char × TagText) :=
  [(['!'], [some '!']), (['!', '!'], TagText.ofString "tag:yaml.org,2002:")]

/-- The directives before a document: at most one version, 1.1 or 1.2, and no handle twice. -/
def directives? (versioned : Bool) (handles : List (List Char × TagText)) :
    List Token → Option (List (List Char × TagText) × List Token)
  | .version major minor :: tokens =>
    if versioned || major != 1 || (minor != 1 && minor != 2) then none
    else directives? true handles tokens
  | .tagDirective handle lead :: tokens =>
    if (handles.lookup handle).isSome then none
    else directives? versioned (handles ++ [(handle, lead)]) tokens
  | tokens => some (handles ++ commonHandles, tokens)

/-- The start of a document, or the end of the stream. -/
def document? (g : Grammar) (bare : Bool) : Option (Option Event × Grammar) :=
  let tokens := if bare then g.tokens else g.tokens.dropWhile (· == .documentEnd)
  match tokens with
  | [] => none
  | .streamEnd :: _ => some (some .streamEnd, { g with expected := .nothing, tokens := [] })
  | token :: _ =>
    let marked := match token with
      | .version .. | .tagDirective .. | .documentStart => true
      | _ => false
    if bare && !marked then
      some (none, { g with expected := .node, later := [.documentEnd], handles := commonHandles })
    else
      match directives? false [] tokens with
      | some (handles, .documentStart :: tokens) =>
        some (none, ⟨.content, [.documentEnd], handles, tokens⟩)
      | _ => none

/-- One step of the machine, with the event it yields. -/
def step? (g : Grammar) : Option (Option Event × Grammar) :=
  let one (r : Option (Event × Grammar)) := r.map fun (e, g) => (some e, g)
  match g.expected, g.tokens with
  | .nothing, _ => none
  | .document bare, _ => g.document? bare
  | .content, .version .. :: _ | .content, .tagDirective .. :: _ | .content, .documentStart :: _
  | .content, .documentEnd :: _ | .content, .streamEnd :: _ => some (some emptyScalar, g.leave)
  | .content, _ | .node, _ => one (g.node? true false)
  | .documentEnd, .documentEnd :: _ => some (some .documentEnd, g.pass.expect (.document false))
  | .documentEnd, _ :: _ => some (some .documentEnd, g.expect (.document false))
  | .blockEntry, .blockEntry :: _ =>
    one (g.pass.nodeUnless? [.blockEntry, .blockEnd] .blockEntry true false)
  | .blockEntry, .blockEnd :: _ => some (some .sequenceEnd, g.pass.leave)
  | .blockEntry, _ => none
  | .indentlessEntry, .blockEntry :: _ =>
    one (g.pass.nodeUnless? [.blockEntry, .key, .value, .blockEnd] .indentlessEntry true false)
  | .indentlessEntry, _ :: _ => some (some .sequenceEnd, g.leave)
  | .blockKey, .key :: _ =>
    one (g.pass.nodeUnless? [.key, .value, .blockEnd] .blockValue true true)
  | .blockKey, .blockEnd :: _ => some (some .mappingEnd, g.pass.leave)
  | .blockKey, _ => none
  | .blockValue, .value :: _ =>
    one (g.pass.nodeUnless? [.key, .value, .blockEnd] .blockKey true true)
  | .blockValue, _ :: _ => some (some emptyScalar, g.expect .blockKey)
  | .flowEntry _, .flowSequenceEnd :: _ => some (some .sequenceEnd, g.pass.leave)
  | .flowEntry true, _ :: _ => entry? g
  | .flowEntry false, .flowEntry :: _ => entry? g.pass
  | .flowEntry false, _ => none
  | .pairKey, .value :: _ | .pairKey, .flowEntry :: _ | .pairKey, .flowSequenceEnd :: _ =>
    some (some emptyScalar, g.pass.expect .pairValue)
  | .pairKey, _ => one ((g.afterwards .pairValue).node? false false)
  | .pairValue, .value :: _ =>
    one (g.pass.nodeUnless? [.flowEntry, .flowSequenceEnd] .pairEnd false false)
  | .pairValue, _ :: _ => some (some emptyScalar, g.expect .pairEnd)
  | .pairEnd, _ :: _ => some (some .mappingEnd, g.expect (.flowEntry false))
  | .flowKey _, .flowMappingEnd :: _ => some (some .mappingEnd, g.pass.leave)
  | .flowKey true, _ :: _ => key? g
  | .flowKey false, .flowEntry :: _ => key? g.pass
  | .flowKey false, _ => none
  | .flowValue, .value :: _ =>
    one (g.pass.nodeUnless? [.flowEntry, .flowMappingEnd] (.flowKey false) false false)
  | .flowValue, _ :: _ | .flowNoValue, _ :: _ => some (some emptyScalar, g.expect (.flowKey false))
  | _, [] => none
where
  /-- An entry of a flow sequence: a node, or a mapping of one pair. -/
  entry? (g : Grammar) : Option (Option Event × Grammar) :=
    match g.tokens with
    | .key :: _ => some (some (.mappingStart none none), g.pass.expect .pairKey)
    | .flowSequenceEnd :: _ => some (some .sequenceEnd, g.pass.leave)
    | _ => ((g.afterwards (.flowEntry false)).node? false false).map fun (e, g) => (some e, g)
  /-- A key of a flow mapping; a node without a colon has no value. -/
  key? (g : Grammar) : Option (Option Event × Grammar) :=
    match g.tokens with
    | .key :: _ =>
      (g.pass.nodeUnless? [.value, .flowEntry, .flowMappingEnd] .flowValue false false).map
        fun (e, g) => (some e, g)
    | .flowMappingEnd :: _ => some (some .mappingEnd, g.pass.leave)
    | _ => ((g.afterwards .flowNoValue).node? false false).map fun (e, g) => (some e, g)

def run : (fuel : Nat) → Grammar → List Event
  | 0, _ => []
  | fuel + 1, g =>
    match g.step? with
    | none => []
    | some (none, g) => run fuel g
    | some (some event, g) => event :: run fuel g

end Grammar

/-- The events of a token sequence. They end with the end of the stream if it is well formed. A
step that passes no token is followed by one that does after at most three more. -/
def Event.ofTokens (tokens : List Token) : List Event :=
  (Grammar.start tokens).run (8 * tokens.length + 16)

end AnnotatedValues.Yaml
