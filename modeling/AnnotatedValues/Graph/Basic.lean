import AnnotatedValues.Annotation.Basic
import AnnotatedValues.Builtin
import AnnotatedValues.Document.Basic
import AnnotatedValues.Text.Case
import AnnotatedValues.TypeExpr.Basic

/-! # The type graph of a values file

Parameters, declared types, enumerations and types that are merely mentioned share one namespace,
in which letter case does not count: the key of a name is its lower case, and all that is said
under one key belongs to one node. Fields belong to a node and are told apart by their exact
names. Nodes and fields are listed in the order in which they were first mentioned. -/
namespace AnnotatedValues

inductive DefaultSource where
  /-- Written in an annotation. -/
  | annotated
  /-- Observed in the values document. -/
  | sampled
  deriving DecidableEq, Repr, Inhabited

structure DefaultText where
  text : String
  source : DefaultSource
  deriving DecidableEq, Repr, Inhabited

structure EnumDecl where
  base : String
  values : List String
  deriving DecidableEq, Repr, Inhabited

/-- What annotations and values say about a parameter or field. -/
structure Member where
  /-- The block as written. -/
  block : String
  type? : Option TypeExpr
  /-- Values that the member is restricted to; no restriction if empty. -/
  choices : List String
  default? : Option DefaultText
  comment : String
  optional : Bool
  deriving DecidableEq, Repr, Inhabited

def Member.blank : Member := ⟨"", none, [], none, "", false⟩

/-- The default that an annotation gives. -/
def Member.annotated? (m : Member) : Option String :=
  (m.default?.filter fun d => d.source = .annotated).map (·.text)

/-- A name of the shared namespace. -/
structure Node where
  /-- The spelling of the last parameter, else the first spelling. -/
  name : String
  isParam : Bool
  isTypedef : Bool
  enum? : Option EnumDecl
  /-- The description of the type. -/
  doc : String
  /-- The parameter, if it is one. -/
  member : Member
  deriving DecidableEq, Repr, Inhabited

def Node.named (name : String) : Node := ⟨name, false, false, none, "", .blank⟩

structure Field where
  /-- The key of the node that it belongs to. -/
  owner : String
  name : String
  member : Member
  deriving DecidableEq, Repr, Inhabited

/-- The key of a name. -/
def keyOf (name : String) : String := String.ofList (Text.lower name.toList)

structure TypeGraph where
  nodes : List (String × Node)
  fields : List Field
  /-- Keys of the parameters in the order of their declaration. -/
  params : List String
  /-- Fields that landed on a type nothing refers to. -/
  diagnostics : List Annotation.Diagnostic
  deriving DecidableEq, Repr, Inhabited

/-- A place in the graph that has a member: a node or one of the fields. -/
inductive Slot where
  | node (key : String)
  | field (owner name : String)
  deriving DecidableEq, Repr, Inhabited

namespace TypeGraph

def empty : TypeGraph := ⟨[], [], [], []⟩

def node? (g : TypeGraph) (key : String) : Option Node := g.nodes.lookup key

/-- The spelling of a key. -/
def nameOf (g : TypeGraph) (key : String) : String := ((g.node? key).map (·.name)).getD key

/-- The key of a name that has a node. -/
def lookup? (g : TypeGraph) (name : String) : Option String :=
  if (g.node? (keyOf name)).isSome then some (keyOf name) else none

/-- The key of the parameter that is spelled exactly so. -/
def param? (g : TypeGraph) (name : String) : Option String :=
  match g.node? (keyOf name) with
  | some node => if node.isParam && node.name == name then some (keyOf name) else none
  | none => none

def field? (g : TypeGraph) (owner name : String) : Option Field :=
  g.fields.find? fun f => f.owner == owner && f.name == name

def hasFields (g : TypeGraph) (key : String) : Bool := g.fields.any fun f => f.owner == key

/-- The fields of a node in the order of their names. -/
def fieldsOf (g : TypeGraph) (key : String) : List Field :=
  (g.fields.filter fun f => f.owner == key).mergeSort fun a b => decide (a.name ≤ b.name)

/-- All nodes in the order of their keys. -/
def types (g : TypeGraph) : List (String × Node) := Document.sortEntries g.nodes

/-- The parameters in the order of their spellings. -/
def sortedParams (g : TypeGraph) : List String :=
  g.params.mergeSort fun a b => decide (g.nameOf a ≤ g.nameOf b)

def member? (g : TypeGraph) : Slot → Option Member
  | .node key => (g.node? key).map (·.member)
  | .field owner name => (g.field? owner name).map (·.member)

/-- The spelling of a node, or of a node and its field with a point between. -/
def path (g : TypeGraph) : Slot → String
  | .node key => g.nameOf key
  | .field owner name => g.nameOf owner ++ "." ++ name

/-- The members of the graph in the order of first mention: nodes, then fields. -/
def members (g : TypeGraph) : List Member :=
  g.nodes.map (·.2.member) ++ g.fields.map (·.member)

def modifyNode (f : Node → Node) (key : String) :
    (nodes : List (String × Node)) → List (String × Node)
  | [] => []
  | (k, node) :: nodes =>
    if k == key then (k, f node) :: nodes else (k, node) :: modifyNode f key nodes

def modifyField (f : Field → Field) (owner name : String) : (fields : List Field) → List Field
  | [] => []
  | field :: fields =>
    if field.owner == owner && field.name == name then f field :: fields
    else field :: modifyField f owner name fields

/-- Changes the node at a key. -/
def updateNode (g : TypeGraph) (key : String) (f : Node → Node) : TypeGraph :=
  { g with nodes := modifyNode f key g.nodes }

/-- Changes the member at a slot. -/
def updateMember (g : TypeGraph) (slot : Slot) (f : Member → Member) : TypeGraph :=
  match slot with
  | .node key => g.updateNode key fun node => { node with member := f node.member }
  | .field owner name =>
    let change (field : Field) : Field := { field with member := f field.member }
    { g with fields := modifyField change owner name g.fields }

theorem map_fst_modifyNode (f : Node → Node) (key : String) (nodes : List (String × Node)) :
    (modifyNode f key nodes).map Prod.fst = nodes.map Prod.fst := by
  induction nodes with
  | nil => rfl
  | cons entry nodes ih => rw [modifyNode]; split <;> simp [ih]

@[simp] theorem fields_updateNode (g : TypeGraph) (key : String) (f : Node → Node) :
    (g.updateNode key f).fields = g.fields := rfl

@[simp] theorem params_updateMember (g : TypeGraph) (slot : Slot) (f : Member → Member) :
    (g.updateMember slot f).params = g.params := by cases slot <;> rfl

end TypeGraph

end AnnotatedValues
