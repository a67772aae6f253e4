import AnnotatedValues.Decimal.Text
import AnnotatedValues.Document.Basic

/-! # What a plain scalar denotes

Nothing or a spelling of null, a truth value, an integer, a floating-point number, or else text.
Integers are decimal, or hexadecimal, octal or binary behind `0x`, `0o`, `0b`; digits behind a
leading zero are text. Integers beyond 64 bits but within 128 are recognized and refused. -/
namespace AnnotatedValues.Yaml

open Decimal

inductive Plain where
  | null
  | bool (value : Bool)
  | int (value : Int)
  /-- An integer of more than 64 and at most 128 bits. -/
  | wide
  | float (value : Binary64)
  /-- An infinity, or not a number. -/
  | special
  | text
  deriving DecidableEq, Repr, Inhabited

namespace Plain

def isNull (cs : List Char) : Bool :=
  ["null".toList, "Null".toList, "NULL".toList, ['~']].contains cs

def bool? (cs : List Char) : Option Bool :=
  if ["true".toList, "True".toList, "TRUE".toList].contains cs then some true
  else if ["false".toList, "False".toList, "FALSE".toList].contains cs then some false
  else none

/-- A zero before further digits, behind an optional sign. -/
def isZeroPadded (cs : List Char) : Bool :=
  let digits := match cs with
    | '-' :: digits | '+' :: digits => digits
    | digits => digits
  match digits with
  | '0' :: rest => !rest.isEmpty && rest.all Char.isDigit
  | _ => false

/-- The number behind a base mark. -/
def based? : List Char → Option Nat
  | '0' :: 'x' :: digits => readNat? 16 digits
  | '0' :: 'o' :: digits => readNat? 8 digits
  | '0' :: 'b' :: digits => readNat? 2 digits
  | _ => none

def unsigned? (cs : List Char) : Option Nat :=
  let digits := match cs with
    | '+' :: digits => digits
    | digits => digits
  match based? digits with
  | some n => some n
  | none => if isZeroPadded cs then none else readNat? 10 digits

/-- The absolute value of a negative integer. -/
def negative? : List Char → Option Nat
  | '-' :: digits =>
    match based? digits with
    | some n => some n
    | none => if isZeroPadded digits then none else readNat? 10 digits
  | _ => none

/-- An integer; nothing beyond 128 bits. -/
def int? (cs : List Char) : Option Plain :=
  match unsigned? cs, negative? cs with
  | some n, _ =>
    if n < Nat.pow 2 64 then some (.int n) else if n < Nat.pow 2 128 then some .wide else none
  | none, some n =>
    if n ≤ Nat.pow 2 63 then some (.int (-n)) else if n ≤ Nat.pow 2 127 then some .wide else none
  | none, none => none

def isInfinity (cs : List Char) : Bool :=
  [".inf".toList, ".Inf".toList, ".INF".toList].contains cs

def float? (cs : List Char) : Option Plain :=
  let unsigned? := match cs with
    | '+' :: '+' :: _ | '+' :: '-' :: _ => none
    | '+' :: rest => some rest
    | rest => some rest
  match unsigned? with
  | none => none
  | some rest =>
    let negated := match cs with
      | '-' :: rest => isInfinity rest
      | _ => false
    if isInfinity rest || negated || [".nan".toList, ".NaN".toList, ".NAN".toList].contains cs then
      some .special
    else (readBinary64? rest).map .float

/-- The reading of a plain scalar. -/
def ofText (cs : List Char) : Plain :=
  if cs.isEmpty || isNull cs then .null
  else match bool? cs with
    | some b => .bool b
    | none =>
      match int? cs with
      | some plain => plain
      | none => if isZeroPadded cs then .text else (float? cs).getD .text

/-- The document that a reading denotes, if `cs` is its text. -/
def document? (cs : List Char) : Plain → Option Document
  | .null | .special => some .null
  | .bool b => some (.bool b)
  | .int n => some (.number (.int n))
  | .float x => some (.number (.float x))
  | .text => some (.string (String.ofList cs))
  | .wide => none

end Plain

end AnnotatedValues.Yaml
