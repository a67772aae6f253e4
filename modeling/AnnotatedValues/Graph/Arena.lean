import AnnotatedValues.Graph.Build
import AnnotatedValues.Graph.Samples
import Mathlib.Computability.StateTransition

/-! # The graph as an arena

The graph again, as one list of cells that refer to each other by their positions. Below the root
stand the nodes, which an index finds by their keys, and below the nodes their fields. Each cell
knows its parent and its children. `graph` forgets the positions. -/
namespace AnnotatedValues

namespace Arena

/-- The position of a cell. -/
abbrev Id := Nat

/-- A map with `value` at `key`, in place of what was there. -/
def put {α : Type} (entries : List (String × α)) (key : String) (value : α) : List (String × α) :=
  entries.filter (fun e => e.1 != key) ++ [(key, value)]

end Arena

/-- The root, a node or a field. Of a field only the name and the member are used. -/
structure Cell where
  node : Node
  parent? : Option Arena.Id
  /-- Nodes by their keys, fields by their names. -/
  children : List (String × Arena.Id)
  deriving DecidableEq, Repr, Inhabited

structure Arena where
  cells : List Cell
  /-- The cells of the nodes by their keys. -/
  index : List (String × Arena.Id)
  /-- The cells of the parameters in the order of their declaration. -/
  params : List Arena.Id
  /-- Fields that landed on a type nothing refers to. -/
  diagnostics : List Annotation.Diagnostic
  deriving DecidableEq, Repr, Inhabited

namespace Arena

open Annotation

def root : Id := 0

def empty : Arena := ⟨[⟨.named "Config", none, []⟩], [], [], []⟩

/-! ## Reading -/

def parent? (a : Arena) (id : Id) : Option Id := a.cells[id]?.bind (·.parent?)

def nameOf (a : Arena) (id : Id) : String := (a.cells[id]?.map (·.node.name)).getD ""

/-- The key of a cell's name. -/
def keyAt (a : Arena) (id : Id) : String := keyOf (a.nameOf id)

def childrenOf (a : Arena) (id : Id) : List (String × Id) :=
  (a.cells[id]?.map (·.children)).getD []

def child? (a : Arena) (id : Id) (name : String) : Option Id := (a.childrenOf id).lookup name

/-- The cell of a name that has a node. -/
def lookup? (a : Arena) (name : String) : Option Id := a.index.lookup (keyOf name)

/-- The cell of the parameter that is spelled exactly so. -/
def param? (a : Arena) (name : String) : Option Id :=
  (a.lookup? name).filter fun id =>
    a.cells[id]?.any fun c => c.node.isParam && c.node.name == name

/-- A step from a cell to its parent, with the names of the cells that were passed. The walk ends at
the root or above it, and never at a position without a cell. -/
def climb? (a : Arena) : Option Id × List String → Option (Option Id × List String)
  | (none, _) => none
  | (some id, names) =>
    if id = root then none
    else match a.cells[id]? with
      | some c => some (c.parent?, c.node.name :: names)
      | none => some (some id, names)

/-- The names of the cells on the way from below the root to a cell, if the walk ends. -/
def names (a : Arena) (id : Id) : Part (List String) :=
  (StateTransition.eval a.climb? (some id, [])).map Prod.snd

/-- The names with points between. -/
def path (a : Arena) (id : Id) : Part String := (a.names id).map (".".intercalate ·)

/-! ## Building -/

def updateNode (a : Arena) (id : Id) (f : Node → Node) : Arena :=
  { a with cells := a.cells.modify id fun c => { c with node := f c.node } }

def updateMember (a : Arena) (id : Id) (f : Member → Member) : Arena :=
  a.updateNode id fun node => { node with member := f node.member }

/-- The arena with a new cell, which `parent` has under `key`. -/
def push (a : Arena) (parent : Id) (key name : String) : Arena :=
  let id := a.cells.length
  let cells := a.cells ++ [⟨.named name, some parent, []⟩]
  { a with cells := cells.modify parent fun c => { c with children := put c.children key id } }

/-- The arena with a node for `name`, and the cell of this node. -/
def ensureNode (a : Arena) (name : String) : Arena × Id :=
  match a.lookup? name with
  | some id => (a, id)
  | none =>
    let id := a.cells.length
    ({ a.push root (keyOf name) name with index := put a.index (keyOf name) id }, id)

/-- The arena with a child `name` of `parent`, and the cell of this child. -/
def ensureField (a : Arena) (parent : Id) (name : String) : Arena × Id :=
  match a.child? parent name with
  | some id => (a, id)
  | none => (a.push parent name name, a.cells.length)

def ensureParam (a : Arena) (id : Id) : Arena :=
  if a.params.contains id then a else { a with params := a.params ++ [id] }

/-- Gives the member of a cell what the row says, and the type it mentions a node. -/
def assign (a : Arena) (id : Id) (row : Row) : Except Error Arena := do
  let type ← TypeExpr.ofBlock row.typeBlock
  let a := a.updateMember id (TypeGraph.rowMember row type)
  return if Builtin.isName type.base then a else (a.ensureNode type.base).1

/-- Reads a row that declares a parameter or a type. -/
def declare (a : Arena) (row : Row) : Except Error Arena :=
  match row.path with
  | [] => .ok a
  | name :: _ =>
    match row.kind with
    | .param =>
      let (a, id) := a.ensureNode name
      let a := a.updateNode id fun node => { node with isParam := true, name }
      (a.ensureParam id).assign id row
    | .typedef =>
      let (a, id) := a.ensureNode name
      .ok <| a.updateNode id fun node => { node with isTypedef := true, doc := row.description }
    | .enum =>
      let (a, id) := a.ensureNode name
      .ok <| a.updateNode id fun node =>
        { node with doc := row.description, enum? := some ⟨row.typeBlock, row.choices⟩ }
    | .field => .ok a

/-- The key of a parameter and the type name that it stands for as the parent of fields. -/
def alias? (a : Arena) (id : Id) : Option (String × String) := do
  let cell ← a.cells[id]?
  let type ← cell.node.member.type?
  if Builtin.isName type.base || keyOf type.base == keyOf cell.node.name then none
  else some (keyOf cell.node.name, type.base)

/-- The type names that parameters stand for, by their keys. -/
def aliases (a : Arena) : List (String × String) :=
  (a.params.filterMap a.alias?).foldl (fun names entry => put names entry.1 entry.2) []

def isDeclared (a : Arena) (id : Id) : Bool :=
  a.cells[id]?.any fun c => c.node.isTypedef || c.node.enum?.isSome

/-- The name of the node that fields of `parent` belong to. -/
def fieldParent (a : Arena) (aliases : List (String × String)) (parent : String) : String :=
  if (a.lookup? parent).any a.isDeclared then parent
  else (aliases.lookup (keyOf parent)).getD parent

/-- Reads a row that declares a field. -/
def place (aliases : List (String × String)) (state : Arena × List (Row × Id)) (row : Row) :
    Except Error (Arena × List (Row × Id)) :=
  match row.kind, row.path with
  | .field, [parent, name] => do
    let (a, placed) := state
    let (a, owner) := a.ensureNode (a.fieldParent aliases parent)
    let (a, id) := a.ensureField owner name
    let a ← a.assign id row
    return (a, placed ++ [(row, owner)])
  | _, _ => .ok state

/-- The keys that the types of members mention. -/
def mentioned (a : Arena) : List String :=
  a.cells.tail.filterMap fun c => c.node.member.type?.map fun type => keyOf type.base

/-- Whether anything refers to a node. -/
def isReferenced (a : Arena) (id : Id) : Bool :=
  a.cells[id]?.any fun c =>
    c.node.isParam || c.node.isTypedef || c.node.enum?.isSome ||
      a.mentioned.contains (keyOf c.node.name)

/-- A warning for each field of a node that nothing refers to. -/
def unreferencedFields (a : Arena) (placed : List (Row × Id)) : List Diagnostic :=
  (placed.filter fun p => !a.isReferenced p.2).map fun p =>
    ⟨p.1.line, "field '" ++ ".".intercalate p.1.path ++ "' belongs to '" ++ a.nameOf p.2 ++
      "', which no parameter or type references"⟩

/-- The arena of a list of rows. -/
def build (rows : List Row) : Except Error Arena := do
  let declared ← rows.foldlM declare .empty
  let (a, placed) ← rows.foldlM (place declared.aliases) (declared, [])
  return { a with diagnostics := a.unreferencedFields placed }

/-! ## Sampling -/

/-- Gives the member of the cell the sample `text`, if it has no default and the text is not
empty. -/
def setSample (id : Id) (text : String) (a : Arena) : Arena :=
  a.updateMember id fun m =>
    if m.default?.isSome || text.isEmpty then m else { m with default? := some ⟨text, .sampled⟩ }

/-- The cell of the name that a member's type is or points to, if it has children. -/
def structOf? (a : Arena) (m : Member) : Option Id :=
  match m.type?.map TypeExpr.pointee with
  | some (.named name) =>
    if Builtin.isName name then none
    else (a.lookup? name).filter fun target => !(a.childrenOf target).isEmpty
  | _ => none

/-- The cell whose children an object at the cell holds: the cell itself if it has children, else
the struct that its type points to. -/
def structAt? (a : Arena) (id : Id) : Option Id :=
  if !(a.childrenOf id).isEmpty then some id
  else (a.cells[id]?.map (·.node.member)).bind a.structOf?

/-- The cell of an entry of the document, or of an object whose fields `owner` has. -/
def entryAt? (a : Arena) (owner : Id) (key : String) : Option Id :=
  if owner = root then a.param? key else a.child? owner key

mutual

/-- Takes samples from the value at a cell. `path` lists the cells being followed. -/
def sampleValue (path : List Id) (id : Id) (a : Arena) : Document → Arena
  | .null => a
  | .bool b => setSample id (TypeGraph.scalarText (.bool b)) a
  | .number n => setSample id (TypeGraph.scalarText (.number n)) a
  | .string s => setSample id s a
  | .array items => setSample id (Document.array items).yaml a
  | .object entries =>
    setSample id (Document.object entries).yaml <|
      match a.structAt? id with
      | some owner =>
        if path.contains owner then a else sampleEntries (owner :: path) owner a entries
      | none => a
termination_by structural d => d

/-- Takes samples from the entries of an object. -/
def sampleEntries (path : List Id) (owner : Id) (a : Arena) :
    List (String × Document) → Arena
  | [] => a
  | (key, value) :: entries =>
    let a := match a.entryAt? owner key with
      | some id => sampleValue path id a value
      | none => a
    sampleEntries path owner a entries
termination_by structural entries => entries

end

/-- The arena with the samples of a values document as defaults. -/
def populate (a : Arena) (values : Document) : Arena := sampleEntries [] root a values.entries

/-! ## Forgetting positions -/

/-- A cell below the root as an entry of the nodes. -/
def node? (c : Cell) : Option (String × Node) :=
  if c.parent? = some root then some (keyOf c.node.name, c.node) else none

/-- A cell below a node as a field, where `keyAt` gives the keys of nodes. -/
def field? (keyAt : Id → String) (c : Cell) : Option Field :=
  match c.parent? with
  | some parent =>
    if parent = root then none else some ⟨keyAt parent, c.node.name, c.node.member⟩
  | none => none

/-- The graph of the nodes and fields in the order of their cells. -/
def graph (a : Arena) : TypeGraph where
  nodes := a.cells.filterMap node?
  fields := a.cells.filterMap (field? a.keyAt)
  params := a.params.map a.keyAt
  diagnostics := a.diagnostics

end Arena

end AnnotatedValues
