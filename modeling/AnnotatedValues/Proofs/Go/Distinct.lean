import AnnotatedValues.Proofs.Go.Declared
import AnnotatedValues.Proofs.Resolved.Collisions

/-!
# Distinct names in a Go file

No type of a file and no field of one of its structs is declared twice.  Types
have different identifiers, none of them that of a root type, so an identifier
tells which type a field refers to; and a type that is called like a root type
changes the identifier of no other.
-/

namespace AnnotatedValues

open Annotation (Scan)
open Fallible Identifier

/-! ## References to types -/

/-- A type expression or a slot refers to the type at the key, under the identifier. -/
def Resolver.Refers (r : Resolver) (key ident : String) : Prop :=
  ∃ t, ((∃ type, r.resolve type = .ok t) ∨ ∃ slot, r.resolveSlot slot = .ok t) ∧
    t.user? = some (key, ident)

theorem Resolver.Refers.isType {r : Resolver} (hg : r.graph.WellFormed) {key ident : String}
    (h : r.Refers key ident) : ident = r.ident key ∧ r.IsType key := by
  obtain ⟨t, ⟨type, ht⟩ | ⟨slot, ht⟩, huser⟩ := h
  · exact isType_of_resolve hg ht huser
  · exact isType_of_user? hg ht huser

/-! ## Fields of a struct -/

namespace Go

variable {r : Resolver}

theorem nodup_idents_of_fieldDecls {slots : List (String × Slot)} {fields : List FieldDecl}
    (h : fieldDecls r slots = .ok fields) : (fields.map (·.ident)).Nodup := by
  have hnodup := nodup_assignFree [] (slots.map fun s => (s.1, withLetter 'X' s.1))
  rwa [← map_names_fieldDecls h, List.map_map] at hnodup

/-- No struct of a file has two fields of one identifier. -/
theorem nodup_idents_of_mem_structs {package : String} {f : File} (h : file r package = .ok f)
    {struct : StructDecl} (hstruct : struct ∈ f.structs) :
    (struct.fields.map (·.ident)).Nodup := by
  obtain ⟨slots, hfields, -⟩ := exists_slots_of_mem_structs h hstruct
  exact nodup_idents_of_fieldDecls hfields

end Go

/-! ## One declaration for each name -/

/-- The types of a graph have different identifiers that are not those of the root types and of the
empty struct; references have one identifier exactly if they are to one type; a Go file declares no
type and none of its structs a field twice; each search for an identifier ends with the first one
that is free; and the types that are not called like a root type have the identifiers that they
would have if those that are were absent. -/
theorem TypeGraph.WellFormed.declared_once {g : TypeGraph} (hg : g.WellFormed) :
    (∀ key other, (Resolver.ofGraph g).IsType key → (Resolver.ofGraph g).IsType other →
      (Resolver.ofGraph g).ident key = (Resolver.ofGraph g).ident other → key = other) ∧
    (∀ key, (Resolver.ofGraph g).IsType key →
      (Resolver.ofGraph g).ident key ∉ [root, rootSpec, emptyObject]) ∧
    (∀ key ident other otherIdent, (Resolver.ofGraph g).Refers key ident →
      (Resolver.ofGraph g).Refers other otherIdent → (ident = otherIdent ↔ key = other)) ∧
    (∀ package text, Go.declarations (.ofGraph g) package = .ok text →
      ∃ f, Go.file (.ofGraph g) package = .ok f ∧
        text = Go.headText package f.imports ++
          Go.trimmedEnd (String.join (f.typeDecls.map Go.TypeDecl.text)) ++ "\n" ∧
        f.typeNames.Nodup ∧ ∀ struct ∈ f.structs, (struct.fields.map (·.ident)).Nodup) ∧
    (∀ taken bases, Assigned taken bases (assignFree taken bases)) ∧
    ∀ key node, (key, node) ∈ g.nodes → isNamedType g key node = true →
      camel node.name ∉ [root, rootSpec] →
        (Resolver.ofGraph g.withoutCollisions).IsType key ∧
          (Resolver.ofGraph g.withoutCollisions).ident key = (Resolver.ofGraph g).ident key := by
  refine ⟨fun key other => Resolver.ident_injective, fun key => Resolver.ident_not_mem_taken,
    ?_, ?_, assigned_assignFree, ?_⟩
  · intro key ident other otherIdent href hother
    obtain ⟨rfl, hkey⟩ := href.isType hg
    obtain ⟨rfl, hkey'⟩ := hother.isType hg
    exact ⟨Resolver.ident_injective hkey hkey', congrArg _⟩
  · intro package text htext
    obtain ⟨f, hf, rfl⟩ := map_eq_ok_iff.mp htext
    have hpackage : f.package = package := by
      obtain ⟨_, _, -, -, rfl⟩ := Go.file_eq_ok_iff.mp hf
      rfl
    refine ⟨f, hf, ?_, Go.nodup_typeNames hg hf, fun struct => Go.nodup_idents_of_mem_structs hf⟩
    rw [Go.File.text, f.bodyText_eq, hpackage]
  · intro key node hmem htype hname
    refine TypeGraph.ident_withoutCollisions hg hmem htype ?_
    rw [List.mem_cons, List.mem_singleton, not_or] at hname
    rw [isReserved, beq_false_of_ne hname.1, beq_false_of_ne hname.2]
    rfl

/-- A type that is called like a root type, and one that has the name which it would get instead. -/
def collidingTypes : String :=
  "## @typedef \x7bstruct\x7d config\n## @field \x7bint\x7d x\n" ++
    "## @typedef \x7bstruct\x7d ValuesConfig\n## @field \x7bconfig\x7d y\n"

theorem collidingTypes_graph :
    ((TypeGraph.build (Scan.ofText collidingTypes.toList).rows).toOption.map fun g =>
      (decide (g.nodes.Pairwise fun a b => decide (a.1 ≤ b.1) = true),
        g.nodes.map fun t => (isNamedType g t.1 t.2, t.1, t.2.name))) =
      some (true, [(true, "config", "config"), (true, "valuesconfig", "ValuesConfig")]) := by
  decide +kernel

/-- That one keeps its name, and would have it without the other. -/
theorem declared_once_collidingTypes :
    ∃ g : TypeGraph, g.WellFormed ∧
      (Resolver.ofGraph g).ident "config" = "ValuesConfig2" ∧
      (Resolver.ofGraph g).ident "valuesconfig" = "ValuesConfig" ∧
      (Resolver.ofGraph g.withoutCollisions).ident "valuesconfig" = "ValuesConfig" := by
  obtain ⟨g, hg, hgraph⟩ := map_toOption_eq_some_iff.mp collidingTypes_graph
  have hwell := TypeGraph.WellFormed.build hg
  obtain ⟨hsorted, hnodes⟩ := Prod.mk.inj hgraph
  obtain ⟨⟨_, config⟩, tail, hsplit, hconfig, htail⟩ := List.map_eq_cons_iff.mp hnodes
  obtain ⟨⟨_, values⟩, tail', rfl, hvalues, hnil⟩ := List.map_eq_cons_iff.mp htail
  rw [List.map_eq_nil_iff.mp hnil] at hsplit
  simp only [Prod.mk.injEq] at hconfig hvalues
  obtain ⟨htype, rfl, hname⟩ := hconfig
  obtain ⟨htype', rfl, hname'⟩ := hvalues
  have htypes : g.types = g.nodes := List.mergeSort_of_pairwise (of_decide_eq_true hsorted)
  have hidents : Identifier.ofGraph g =
      [("valuesconfig", "ValuesConfig"), ("config", "ValuesConfig2")] := by
    simp only [Identifier.ofGraph, typeBases, htypes, hsplit, List.filter_cons, htype, htype',
      List.filter_nil, if_true, List.map_cons, List.map_nil, hname, hname']
    decide
  obtain ⟨-, -, -, -, -, hcollisions⟩ := hwell.declared_once
  have hplain := hcollisions "valuesconfig" values
    (hsplit ▸ List.mem_cons_of_mem _ List.mem_cons_self) htype' (by rw [hname']; decide)
  have hident : (Resolver.ofGraph g).ident "valuesconfig" = "ValuesConfig" := by
    rw [Resolver.ident, Resolver.ofGraph, hidents]
    rfl
  refine ⟨g, hwell, ?_, hident, hplain.2.trans hident⟩
  rw [Resolver.ident, Resolver.ofGraph, hidents]
  rfl

end AnnotatedValues
