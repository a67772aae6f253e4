import AnnotatedValues.Error
import AnnotatedValues.Graph.Basic

/-! # Building the graph

Rows are read twice: first the declarations, then the fields, whose parents may be named by a
parameter of their type. Of several rows for one member the last gives its type, description,
choices, optionality and spelling; a default stays until a later row gives another. -/
namespace AnnotatedValues.TypeGraph

open Annotation

/-- The graph with a node for `name`. -/
def ensureNode (g : TypeGraph) (name : String) : TypeGraph :=
  if (g.node? (keyOf name)).isSome then g
  else { g with nodes := g.nodes ++ [(keyOf name, .named name)] }

/-- The graph with a field `name` of the node `owner`. -/
def ensureField (g : TypeGraph) (owner name : String) : TypeGraph :=
  if (g.field? owner name).isSome then g
  else { g with fields := g.fields ++ [⟨owner, name, .blank⟩] }

def ensureParam (g : TypeGraph) (key : String) : TypeGraph :=
  if g.params.contains key then g else { g with params := g.params ++ [key] }

/-- What a row says about a member. -/
def rowMember (row : Row) (type : TypeExpr) (m : Member) : Member where
  block := row.typeBlock
  type? := some type
  choices := row.choices
  default? := if row.default.isEmpty then m.default? else some ⟨row.default, .annotated⟩
  comment := row.description
  optional := row.optional

/-- Gives the member at a slot what the row says, and the type it mentions a node. -/
def assign (g : TypeGraph) (slot : Slot) (row : Row) : Except Error TypeGraph := do
  let type ← TypeExpr.ofBlock row.typeBlock
  let g := g.updateMember slot (rowMember row type)
  return if Builtin.isName type.base then g else g.ensureNode type.base

/-- Reads a row that declares a parameter or a type. -/
def declare (g : TypeGraph) (row : Row) : Except Error TypeGraph :=
  match row.path with
  | [] => .ok g
  | name :: _ =>
    let key := keyOf name
    match row.kind with
    | .param =>
      let g := (g.ensureNode name).updateNode key fun node => { node with isParam := true, name }
      (g.ensureParam key).assign (.node key) row
    | .typedef =>
      .ok <| (g.ensureNode name).updateNode key fun node =>
        { node with isTypedef := true, doc := row.description }
    | .enum =>
      .ok <| (g.ensureNode name).updateNode key fun node =>
        { node with doc := row.description, enum? := some ⟨row.typeBlock, row.choices⟩ }
    | .field => .ok g

/-- The type name that a parameter stands for as the parent of fields: its own type's, if that is
not built in and not the parameter itself. -/
def alias? (g : TypeGraph) (key : String) : Option String :=
  match g.node? key with
  | some node =>
    if node.isParam then
      match node.member.type? with
      | some type =>
        if Builtin.isName type.base || keyOf type.base == key then none else some type.base
      | none => none
    else none
  | none => none

def isDeclared (g : TypeGraph) (key : String) : Bool :=
  match g.node? key with
  | some node => node.isTypedef || node.enum?.isSome
  | none => false

/-- The name of the node that fields of `parent` belong to, by the declarations in `declared`. -/
def fieldParent (declared : TypeGraph) (g : TypeGraph) (parent : String) : String :=
  if g.isDeclared (keyOf parent) then parent else (declared.alias? (keyOf parent)).getD parent

/-- A field that was placed, by its row, and the key of its node. -/
abbrev Placement := Row × String

/-- Reads a row that declares a field. -/
def place (declared : TypeGraph) (state : TypeGraph × List Placement) (row : Row) :
    Except Error (TypeGraph × List Placement) :=
  match row.kind, row.path with
  | .field, [parent, name] => do
    let (g, placed) := state
    let owner := fieldParent declared g parent
    let key := keyOf owner
    let g ← ((g.ensureNode owner).ensureField key name).assign (.field key name) row
    return (g, placed ++ [(row, key)])
  | _, _ => .ok state

/-- The keys that the types of members mention. -/
def mentioned (g : TypeGraph) : List String :=
  g.members.filterMap fun m => m.type?.map fun type => keyOf type.base

/-- Whether anything refers to a node. -/
def isReferenced (g : TypeGraph) (key : String) : Bool :=
  match g.node? key with
  | some node =>
    node.isParam || node.isTypedef || node.enum?.isSome || g.mentioned.contains (keyOf node.name)
  | none => false

/-- A warning for each field of a node that nothing refers to. -/
def unreferencedFields (g : TypeGraph) (placed : List Placement) : List Diagnostic :=
  (placed.filter fun p => !g.isReferenced p.2).map fun p =>
    ⟨p.1.line, "field '" ++ ".".intercalate p.1.path ++ "' belongs to '" ++ g.nameOf p.2 ++
      "', which no parameter or type references"⟩

/-- The graph of a list of rows. -/
def build (rows : List Row) : Except Error TypeGraph := do
  let declared ← rows.foldlM declare .empty
  let (g, placed) ← rows.foldlM (place declared) (declared, [])
  return { g with diagnostics := g.unreferencedFields placed }

end AnnotatedValues.TypeGraph
