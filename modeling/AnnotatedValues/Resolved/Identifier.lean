import AnnotatedValues.Decimal.Text
import AnnotatedValues.Graph.Basic
import AnnotatedValues.Text.Blank

/-! # Identifiers

Names become identifiers by joining their parts, each with a capital at its start. Types that would
be called like the two root types take a longer name, after all others have theirs; a name that is
taken gets the first free number from 2 on. -/
namespace AnnotatedValues

namespace Identifier

open Text

/-- The root type, and the type that has one field for each parameter. -/
def root : String := "Config"

def rootSpec : String := "ConfigSpec"

/-- The struct without fields. -/
def emptyObject : String := "Emptyobject"

/-- What the names of types that collide with the root types are led by. -/
def collisionLead : String := "Values"

def isJoint (c : Char) : Bool := c == '_' || c == '-'

/-- The parts between underscores and dashes, each capitalized, without anything between them. -/
def camelChars (cs : List Char) : List Char := (splitBy isJoint cs).flatMap capitalized

def camel (name : String) : String := String.ofList (camelChars name.toList)

/-- The camel-cased name, behind `lead` if it does not start with an ASCII letter. -/
def withLetter (lead : Char) (name : String) : String :=
  match camelChars name.toList with
  | c :: cs => String.ofList (if c.isAlpha then c :: cs else lead :: c :: cs)
  | [] => String.ofList [lead]

def numbered (base : String) (n : Nat) : String := base ++ String.ofList (Decimal.natText n)

/-- The first of `base` with the numbers from `n` on that is not taken, of `tries` candidates. -/
def firstFree (taken : List String) (base : String) : (tries n : Nat) → String
  | 0, n => numbered base n
  | tries + 1, n =>
    if taken.contains (numbered base n) then firstFree taken base tries (n + 1)
    else numbered base n

/-- `base`, with a number if it is taken. -/
def free (taken : List String) (base : String) : String :=
  if taken.contains base then firstFree taken base taken.length 2 else base

/-- Free identifiers for the bases in their order, none of them taken or equal to an earlier one. -/
def assignFree (taken : List String) : List (String × String) → List (String × String)
  | [] => []
  | (key, base) :: rest =>
    let ident := free taken base
    (key, ident) :: assignFree (ident :: taken) rest

/-- Whether a node gets an identifier: it has fields or is an enumeration. -/
def isNamedType (g : TypeGraph) (key : String) (node : Node) : Bool :=
  g.hasFields key || node.enum?.isSome

/-- The keys and names of the nodes with identifiers, in the order of the keys. -/
def typeBases (g : TypeGraph) : List (String × String) :=
  (g.types.filter fun t => isNamedType g t.1 t.2).map fun t => (t.1, withLetter 'T' t.2.name)

def isReserved (base : String) : Bool := base == root || base == rootSpec

/-- The identifiers of a graph's types, by their keys. -/
def ofGraph (g : TypeGraph) : List (String × String) :=
  let plain := (typeBases g).filter fun t => !isReserved t.2
  let renamed := ((typeBases g).filter fun t => isReserved t.2).map fun t =>
    (t.1, collisionLead ++ t.2)
  assignFree [root, rootSpec, emptyObject] (plain ++ renamed)

end Identifier

end AnnotatedValues
