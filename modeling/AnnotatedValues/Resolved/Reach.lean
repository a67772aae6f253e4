import AnnotatedValues.Resolved.Resolver

/-! # Structs that are declared

A struct is declared if values can contain it: a parameter's type or a declared type leads to it
through the types of fields. -/
namespace AnnotatedValues.Resolver

/-- The structs that the types of a struct's fields contain. -/
def successors (r : Resolver) (key : String) : List String :=
  (r.graph.fieldsOf key).filterMap fun f =>
    match r.resolveSlot (.field key f.name) with
    | .ok t => t.innermost?.map (·.key)
    | .error _ => none

/-- The structs that the types of parameters contain, and the declared types with fields. -/
def roots (r : Resolver) : List String :=
  r.graph.params.filterMap (fun key =>
    match r.resolveSlot (.node key) with
    | .ok t => t.innermost?.map (·.key)
    | .error _ => none) ++
  (r.graph.types.filter fun t => t.2.isTypedef && r.graph.hasFields t.1).map (·.1)

/-- What is reached once a struct is visited: if it is new, it is kept and its successors are
visited one after another, each with all that is reached before it. At most so many visits are
inside each other as there are levels. -/
def visit (next : String → List String) : (levels : Nat) → (reached : List String) → String →
    List String
  | 0, reached, _ => reached
  | levels + 1, reached, key =>
    if reached.contains key then reached
    else (next key).foldl (visit next levels) (key :: reached)

/-- What visits to all roots reach, with a level for each node and one more. -/
def reached (r : Resolver) : List String :=
  r.roots.foldl (visit r.successors (r.graph.nodes.length + 1)) []

/-- The structs that get a declaration, by identifier. -/
def structTypes (r : Resolver) : List StructRef :=
  let reached := r.reached
  let refs := (r.graph.types.filter fun t =>
      reached.contains t.1 && t.2.enum?.isNone && !Builtin.isName t.2.name).map
    fun t => r.structRef t.1
  refs.mergeSort fun a b => decide (a.ident ≤ b.ident)

end AnnotatedValues.Resolver
