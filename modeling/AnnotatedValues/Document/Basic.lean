import AnnotatedValues.Decimal.Binary64

/-! # Values documents

A values document is a tree of objects, arrays and scalars. An object lists its entries in the
order of the document, and its keys differ. `sorted` puts the entries of every object into the
order of their keys; `get?` does not notice. -/
namespace AnnotatedValues

inductive Number where
  | int (value : Int)
  | float (value : Decimal.Binary64)
  deriving DecidableEq, Repr, Inhabited

inductive Document where
  | null
  | bool (value : Bool)
  | number (value : Number)
  | string (value : String)
  | array (items : List Document)
  | object (entries : List (String × Document))
  deriving Repr, Inhabited

namespace Document

mutual

/-- Equality of documents, entry order included. -/
def decEq : (a b : Document) → Decidable (a = b)
  | .null, b => by cases b <;> first | exact isTrue rfl | exact isFalse (by simp)
  | .bool x, .bool y => if h : x = y then isTrue (by rw [h]) else isFalse (by simpa using h)
  | .number x, .number y => if h : x = y then isTrue (by rw [h]) else isFalse (by simpa using h)
  | .string x, .string y => if h : x = y then isTrue (by rw [h]) else isFalse (by simpa using h)
  | .array xs, .array ys =>
    match decEqItems xs ys with
    | isTrue h => isTrue (by rw [h])
    | isFalse h => isFalse (by simpa using h)
  | .object xs, .object ys =>
    match decEqEntries xs ys with
    | isTrue h => isTrue (by rw [h])
    | isFalse h => isFalse (by simpa using h)
  | .bool _, .null | .bool _, .number _ | .bool _, .string _ | .bool _, .array _
  | .bool _, .object _ | .number _, .null | .number _, .bool _ | .number _, .string _
  | .number _, .array _ | .number _, .object _ | .string _, .null | .string _, .bool _
  | .string _, .number _ | .string _, .array _ | .string _, .object _ | .array _, .null
  | .array _, .bool _ | .array _, .number _ | .array _, .string _ | .array _, .object _
  | .object _, .null | .object _, .bool _ | .object _, .number _ | .object _, .string _
  | .object _, .array _ => isFalse (by simp)
termination_by structural a => a

def decEqItems : (xs ys : List Document) → Decidable (xs = ys)
  | [], [] => isTrue rfl
  | [], _ :: _ | _ :: _, [] => isFalse (by simp)
  | x :: xs, y :: ys =>
    match decEq x y, decEqItems xs ys with
    | isTrue h, isTrue k => isTrue (by rw [h, k])
    | isFalse h, _ => isFalse (by simp [h])
    | _, isFalse k => isFalse (by simp [k])
termination_by structural xs => xs

def decEqEntries : (xs ys : List (String × Document)) → Decidable (xs = ys)
  | [], [] => isTrue rfl
  | [], _ :: _ | _ :: _, [] => isFalse (by simp)
  | (k, x) :: xs, (l, y) :: ys =>
    match (inferInstance : Decidable (k = l)), decEq x y, decEqEntries xs ys with
    | isTrue h, isTrue i, isTrue j => isTrue (by rw [h, i, j])
    | isFalse h, _, _ => isFalse (by simp [h])
    | _, isFalse i, _ => isFalse (by simp [i])
    | _, _, isFalse j => isFalse (by simp [j])
termination_by structural xs => xs

end

instance : DecidableEq Document := decEq

def isNull : Document → Bool
  | .null => true
  | _ => false

/-- The entries of an object; other documents have none. -/
def entries : Document → List (String × Document)
  | .object entries => entries
  | _ => []

def items? : Document → Option (List Document)
  | .array items => some items
  | _ => none

/-- The value at a key of an object. -/
def get? (d : Document) (key : String) : Option Document := d.entries.lookup key

/-- `entries` with `value` at `key`: in the place of the value that was there, else at the end. -/
def put (entries : List (String × Document)) (key : String) (value : Document) :
    List (String × Document) :=
  match entries with
  | [] => [(key, value)]
  | (k, v) :: rest => if k == key then (k, value) :: rest else (k, v) :: put rest key value

theorem keys_put (entries : List (String × Document)) (key : String) (value : Document) :
    (put entries key value).map Prod.fst =
      if key ∈ entries.map Prod.fst then entries.map Prod.fst
      else entries.map Prod.fst ++ [key] := by
  induction entries with
  | nil => rfl
  | cons entry rest ih =>
    rw [put]
    by_cases h : entry.1 = key
    · simp [h]
    · have h' : ¬ key = entry.1 := fun e => h e.symm
      simp only [beq_iff_eq, h, if_false, List.map_cons, ih, List.mem_cons, h', false_or]
      split <;> rfl

/-- Entries in the order of their keys. -/
def sortEntries {α : Type} (entries : List (String × α)) : List (String × α) :=
  entries.mergeSort fun a b => decide (a.1 ≤ b.1)

mutual

/-- The document with the entries of every object in the order of their keys. -/
def sorted : Document → Document
  | .array items => .array (sortedItems items)
  | .object entries => .object (sortEntries (sortedValues entries))
  | .null => .null
  | .bool value => .bool value
  | .number value => .number value
  | .string value => .string value
termination_by structural d => d

def sortedItems : List Document → List Document
  | [] => []
  | item :: items => sorted item :: sortedItems items
termination_by structural items => items

def sortedValues : List (String × Document) → List (String × Document)
  | [] => []
  | (key, value) :: entries => (key, sorted value) :: sortedValues entries
termination_by structural entries => entries

end

@[simp] theorem sorted_array (items : List Document) :
    sorted (.array items) = .array (items.map sorted) := by
  rw [sorted]
  congr 1
  induction items with
  | nil => rfl
  | cons item items ih => rw [sortedItems, ih]; rfl

@[simp] theorem sorted_object (entries : List (String × Document)) :
    sorted (.object entries) = .object (sortEntries (entries.map fun e => (e.1, e.2.sorted))) := by
  rw [sorted]
  congr 2
  induction entries with
  | nil => rfl
  | cons entry entries ih => rw [sortedValues, ih]; rfl

end Document

end AnnotatedValues
