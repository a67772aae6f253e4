import AnnotatedValues.Proofs.Reading
import AnnotatedValues.Proofs.Schema.Nesting
import AnnotatedValues.Proofs.Table.Nesting
import AnnotatedValues.Schema.Resource

/-!
# Recursive types are expanded once

The resource definition and the tables can be derived with one stack of structs
for all parameters, or all of a section.  This ends for recursive types too, no
struct is expanded inside itself, and no parameter leaves anything behind that
the next one could see.
-/

namespace AnnotatedValues

open Annotation (Scan)
open Fallible

namespace Resolver

/-! ## Outputs with a stack -/

/-- The resource definition; nothing if it needs more levels. -/
def guardedNative (r : Resolver) (levels : Nat) (source : String) :
    Option (Except Error ResourceDefinition) :=
  ((r.guardedSpec levels).runFrom .start).map fun
    | (.ok spec, _) => .ok (.wrap spec)
    | (.error ⟨name⟩, _) => .error (.compiler source ("type '" ++ name ++ "' has no schema"))

/-- A table for each section that has rows, each with a stack of its own; nothing if one of them
needs more levels. -/
def guardedTables (r : Resolver) (levels : Nat) (sections : List Annotation.Section)
    (values : Document) : ExceptT Unresolved Option (List Table) := do
  let tables ← sections.mapM fun s =>
    .mk (((Table.guardedSection r levels values s).runFrom .start).map Prod.fst)
  return tables.filter fun table => !table.rows.isEmpty

variable {r : Resolver} {levels : Nat}

theorem guardedNative_eq (hg : r.graph.WellFormed) (h : r.graph.nodes.length < levels)
    (source declarations : String) :
    r.guardedNative levels source = some (SchemaCompiler.native source declarations r) := by
  obtain ⟨s, hrun, -⟩ := (follows_guardedSpec hg h).endsOnce
  rw [guardedNative, hrun, SchemaCompiler.native]
  cases r.specSchema with
  | ok spec => rfl
  | error e => rfl

theorem run_guardedTables (hg : r.graph.WellFormed) (h : r.graph.nodes.length < levels)
    (sections : List Annotation.Section) (values : Document) :
    (r.guardedTables levels sections values).run = some (r.tables sections values) := by
  have hsections : ∀ sections : List Annotation.Section,
      (sections.mapM fun s => (.mk (((Table.guardedSection r levels values s).runFrom .start).map
        Prod.fst) : ExceptT Unresolved Option Table)) =
          .mk (some (sections.mapM (Table.ofSection r values))) := by
    intro sections
    induction sections with
    | nil => rfl
    | cons s sections ih =>
        obtain ⟨_, hrun, -⟩ := (Table.follows_guardedSection hg h values s).endsOnce
        rw [List.mapM_cons, List.mapM_cons, ih, hrun]
        cases Table.ofSection r values s with
        | error e => rfl
        | ok table =>
            cases sections.mapM (Table.ofSection r values) <;> rfl
  rw [guardedTables, hsections, tables]
  cases sections.mapM (Table.ofSection r values) <;> rfl

/-- With a level for each node and one more, the resource definition and all tables are derived, and
no struct is expanded inside itself.  Inside any structs, every member leaves the stack as it was if
it has a schema or rows; so whatever parameters came before, a parameter has the schema and the
rows that it has alone. -/
theorem expansions_guarded (hg : r.graph.WellFormed) (h : r.graph.nodes.length < levels) :
    (∀ source declarations,
      r.guardedNative levels source = some (SchemaCompiler.native source declarations r)) ∧
    (∀ sections values,
      (r.guardedTables levels sections values).run = some (r.tables sections values)) ∧
    (r.guardedSpec levels).EndsOnce r.specSchema ∧
    (∀ values section',
      (Table.guardedSection r levels values section').EndsOnce
        (Table.ofSection r values section')) ∧
    (∀ stack, stack.Nodup → (∀ key ∈ stack, key ∈ r.graph.nodes.map Prod.fst) →
      (∀ slot, ∃ schema, Follows stack (r.guardedSchema levels slot) schema) ∧
      ∀ path slot value?, ∃ rows, Follows stack (Table.guardedRows r levels path slot value?) rows) ∧
    Unaffected (fun key => r.guardedSchema levels (.node key)) r.paramSchema ∧
    ∀ values, Unaffected (Table.guardedParam r levels values) (Table.paramRows r values) := by
  refine ⟨guardedNative_eq hg h, run_guardedTables hg h, (follows_guardedSpec hg h).endsOnce,
    fun values s => (Table.follows_guardedSection hg h values s).endsOnce, ?_,
    Follows.unaffected (follows_guardedParam hg h),
    fun values => Follows.unaffected (Table.follows_guardedParam hg h values)⟩
  intro stack hnodup hknown
  have hroom : r.Room levels stack := ⟨hnodup, hknown, Nat.lt_add_right _ h⟩
  exact ⟨fun slot => ⟨_, follows_guardedSchema hg hroom slot⟩,
    fun path slot value? => ⟨_, Table.follows_guardedRows hg hroom path slot value?⟩⟩

/-- Two structs that point to each other. -/
def mutualStructs : String :=
  "## @param \x7ba\x7d main\n## @field \x7b*b\x7d a.other\n## @field \x7b[]a\x7d b.others\n"

theorem mutualStructs_expansions :
    ((TypeGraph.build (Scan.ofText mutualStructs.toList).rows).toOption.map fun g =>
      (((ofGraph g).guardedSpec (g.nodes.length + 1)).runFrom .start).map fun p =>
        (p.1.toOption.isSome, p.2)) =
      some (some (true, ⟨[], [.starts "a", .starts "b", .ends, .ends]⟩)) := by
  decide +kernel

/-- Each is expanded once. -/
theorem expansions_guarded_mutualStructs :
    ∃ g : TypeGraph, g.WellFormed ∧ ∃ spec s,
      (ofGraph g).guardedNative (g.nodes.length + 1) "" = some (.ok (.wrap spec)) ∧
        ((ofGraph g).guardedSpec (g.nodes.length + 1)).runFrom .start = some (.ok spec, s) ∧
          s.past = [.starts "a", .starts "b", .ends, .ends] ∧ NeverTwice s.past := by
  obtain ⟨g, hg, hexpansions⟩ := map_toOption_eq_some_iff.mp mutualStructs_expansions
  have hwell := TypeGraph.WellFormed.build hg
  have hroom : g.nodes.length < g.nodes.length + 1 := Nat.lt_succ_self _
  obtain ⟨hnative, -, ⟨s, hrun, honce⟩, -⟩ := expansions_guarded (r := ofGraph g) hwell hroom
  rw [hrun, Option.map_some, Option.some.injEq, Prod.mk.injEq] at hexpansions
  obtain ⟨hspec, rfl⟩ := hexpansions
  cases hschema : (ofGraph g).specSchema with
  | error e =>
      rw [hschema] at hspec
      cases hspec
  | ok spec =>
      rw [hschema] at hrun
      refine ⟨g, hwell, spec, _, ?_, hrun, rfl, honce⟩
      rw [hnative "" "", SchemaCompiler.native, hschema]

end Resolver

end AnnotatedValues
