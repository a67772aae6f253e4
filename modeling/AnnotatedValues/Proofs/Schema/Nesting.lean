import AnnotatedValues.Proofs.Nesting
import AnnotatedValues.Proofs.Schema.Compile

/-!
# Schemas from a shared stack

The schemas of all parameters can be computed with one stack of the structs that
are being expanded.  With a level of nesting for each node and one more the
computation ends, and every member has the schema that it has among the structs
on the stack.
-/

namespace AnnotatedValues.Resolver

variable (r : Resolver)

/-! ## Schemas with a stack -/

/-- The schema of a type, given those of structs. -/
def guardedType (struct : StructRef → Guarded Schema) : Resolved → Guarded Schema
  | .primitive p => return primitiveSchema [] p
  | .format name => return .scalar .none .string (some name)
  | .semantic s => return semanticSchema s
  | .pointer inner => guardedType struct inner
  | .array inner => do return .array .none (← guardedType struct inner)
  | .map inner => do return .map .none (← guardedType struct inner)
  | .enum ref => return primitiveSchema (ref.values.map fun v => enumValue v ref.base) ref.base
  | .struct ref => struct ref

/-- The schema of a member, given those of structs. -/
def guardedMember (struct : StructRef → Guarded Schema) (slot : Slot) : Guarded Schema := do
  let type ← .lift (r.resolveSlot slot)
  let schema ← guardedType struct type
  return schema.withNotes (memberNotes ((r.graph.member? slot).getD .blank) type)

/-- The schema of a struct, which is on the stack while those of its fields are computed. -/
def guardedStruct : (levels : Nat) → StructRef → Guarded Schema
  | 0, _ => .tooDeep
  | levels + 1, ref => .expanding ref.key (.freeForm .none) do
    let properties ← (r.graph.fieldsOf ref.key).mapM fun f => do
      let schema ← r.guardedMember (guardedStruct levels) (.field ref.key f.name)
      return (f.name, schema)
    return .object .none properties

def guardedSchema (levels : Nat) (slot : Slot) : Guarded Schema :=
  r.guardedMember (r.guardedStruct levels) slot

/-- The schema with a property for each parameter, with one stack for all. -/
def guardedSpec (levels : Nat) : Guarded Schema := do
  let properties ← r.graph.sortedParams.mapM fun key => do
    return (r.graph.nameOf key, ← r.guardedSchema levels (.node key))
  return .object .none properties

/-! ## The schemas among the structs on the stack -/

variable {r} {stack : List String} {struct : StructRef → Guarded Schema}
  {struct' : StructRef → Except Unresolved Schema}

theorem follows_guardedType {t : Resolved}
    (h : ∀ ref, t.innermost? = some ref → Follows stack (struct ref) (struct' ref)) :
    Follows stack (guardedType struct t) (typeSchema struct' t) := by
  induction t with
  | primitive p => exact .pure stack _
  | format name => exact .pure stack _
  | semantic s => exact .pure stack _
  | pointer inner ih => exact ih h
  | array inner ih => exact (ih h).map (Schema.array .none)
  | map inner ih => exact (ih h).map (Schema.map .none)
  | enum ref => exact .pure stack _
  | struct ref => exact h ref rfl

theorem follows_guardedMember {slot : Slot}
    (h : ∀ t ref, r.resolveSlot slot = .ok t → t.innermost? = some ref →
      Follows stack (struct ref) (struct' ref)) :
    Follows stack (r.guardedMember struct slot) (r.memberSchema struct' slot) := by
  refine (Follows.lift stack (r.resolveSlot slot)).bind fun t ht => ?_
  refine (follows_guardedType fun ref href => h t ref ht href).bind fun schema _ => ?_
  exact .pure stack _

/-- Structs of the graph are expanded while there is room. -/
theorem follows_guardedStruct (hg : r.graph.WellFormed) {levels : Nat}
    (hroom : r.Room levels stack) {ref : StructRef}
    (href : ref.key ∈ r.graph.nodes.map Prod.fst) :
    Follows stack (r.guardedStruct levels ref)
      (r.structSchema (r.graph.nodes.length + 1 - stack.length) stack ref) := by
  induction levels generalizing stack ref with
  | zero => exact hroom.not_zero.elim
  | succ levels ih =>
      rw [hroom.budget_eq, guardedStruct, structSchema]
      refine .expanding fun hfresh => ?_
      have hbelow := hroom.push href hfresh
      refine Follows.bind (.mapM fun f _ => ?_) fun properties _ => .pure _ _
      refine Follows.bind (follows_guardedMember fun t ref' ht href' => ?_) fun schema _ => .pure _ _
      rw [← Room.budget_push r ref.key stack]
      exact ih hbelow (mem_keys_of_innermost? hg ht href')

/-- Every member has the schema that it has inside the structs on the stack. -/
theorem follows_guardedSchema (hg : r.graph.WellFormed) {levels : Nat}
    (hroom : r.Room levels stack) (slot : Slot) :
    Follows stack (r.guardedSchema levels slot)
      (r.memberSchema (r.structSchema (r.graph.nodes.length + 1 - stack.length) stack) slot) :=
  follows_guardedMember fun _ _ ht href => follows_guardedStruct hg hroom (mem_keys_of_innermost? hg ht href)

theorem follows_guardedParam (hg : r.graph.WellFormed) {levels : Nat}
    (h : r.graph.nodes.length < levels) (key : String) :
    Follows [] (r.guardedSchema levels (.node key)) (r.paramSchema key) :=
  follows_guardedSchema hg (.empty h) (.node key)

theorem follows_guardedSpec (hg : r.graph.WellFormed) {levels : Nat}
    (h : r.graph.nodes.length < levels) : Follows [] (r.guardedSpec levels) r.specSchema := by
  refine Follows.bind (.mapM fun key _ => ?_) fun properties _ => .pure _ _
  exact (follows_guardedParam hg h key).bind fun schema _ => .pure _ _

end AnnotatedValues.Resolver
