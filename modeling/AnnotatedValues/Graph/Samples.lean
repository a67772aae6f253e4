import AnnotatedValues.Document.Json
import AnnotatedValues.Graph.Basic
import AnnotatedValues.Yaml.Block

/-! # Samples as defaults

What the values document holds for a parameter or field becomes its default, unless it has one. An
object is followed into the fields of its type; on a path down the document no type is followed
twice. -/
namespace AnnotatedValues.TypeGraph

/-- The text of a scalar: a string itself, anything else as JSON. -/
def scalarText : Document → String
  | .string s => s
  | other => other.json

/-- Gives the member at the slot the sample `text`, if it has no default and the text is not
empty. -/
def setSample (slot : Slot) (text : String) (g : TypeGraph) : TypeGraph :=
  g.updateMember slot fun m =>
    if m.default?.isSome || text.isEmpty then m else { m with default? := some ⟨text, .sampled⟩ }

/-- The type that a member's type is or points to, if it is a name of a node with fields. -/
def structOf? (g : TypeGraph) (m : Member) : Option String :=
  match m.type?.map TypeExpr.pointee with
  | some (.named name) =>
    if Builtin.isName name then none else (g.lookup? name).filter g.hasFields
  | _ => none

/-- The key of the node whose fields an object at the slot holds: the node itself if it has
fields, else the struct that its type points to. -/
def structAt? (g : TypeGraph) (slot : Slot) : Option String :=
  match slot with
  | .node key => if g.hasFields key then some key else (g.member? slot).bind g.structOf?
  | .field _ _ => (g.member? slot).bind g.structOf?

/-- The slot of an entry of the document, or of an object of the struct `owner`. -/
def slotOf? (g : TypeGraph) (owner : Option String) (key : String) : Option Slot :=
  match owner with
  | none => (g.param? key).map .node
  | some owner => if (g.field? owner key).isSome then some (.field owner key) else none

mutual

/-- Takes samples from the value at a slot. `path` lists the structs being followed. -/
def sampleValue (path : List String) (slot : Slot) (g : TypeGraph) : Document → TypeGraph
  | .null => g
  | .bool b => setSample slot (scalarText (.bool b)) g
  | .number n => setSample slot (scalarText (.number n)) g
  | .string s => setSample slot s g
  | .array items => setSample slot (Document.array items).yaml g
  | .object entries =>
    setSample slot (Document.object entries).yaml <|
      match g.structAt? slot with
      | some owner =>
        if path.contains owner then g else sampleEntries (owner :: path) (some owner) g entries
      | none => g
termination_by structural d => d

/-- Takes samples from the entries of an object. -/
def sampleEntries (path : List String) (owner : Option String) (g : TypeGraph) :
    List (String × Document) → TypeGraph
  | [] => g
  | (key, value) :: entries =>
    let g := match g.slotOf? owner key with
      | some slot => sampleValue path slot g value
      | none => g
    sampleEntries path owner g entries
termination_by structural entries => entries

end

/-- The graph with the samples of a values document as defaults. -/
def populate (g : TypeGraph) (values : Document) : TypeGraph :=
  sampleEntries [] none g values.entries

end AnnotatedValues.TypeGraph
