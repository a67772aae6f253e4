import AnnotatedValues.Go.File
import AnnotatedValues.Proofs.Resolved.Equivalence
import AnnotatedValues.Proofs.Validation
import AnnotatedValues.Schema.Resource

/-!
# Outputs of equivalent graphs

Validation, the schemas and the Go file read a graph by keys and slots and list
members in the order of their names.  Equivalent graphs therefore have the same
outputs, down to the paths of problems and to the texts that are written.
-/

namespace AnnotatedValues

namespace TypeGraph.Equivalent

variable {g g' : TypeGraph}

/-! ## Validation -/

theorem readsAlike (h : g.Equivalent g') :
    (Resolver.ofGraph g).ReadsAlike (Resolver.ofGraph g') where
  slotOf?_eq := h.slotOf?_eq
  resolveSlot_eq := h.resolveSlot_eq

theorem validate_eq (h : g.Equivalent g') :
    (Resolver.ofGraph g).validate = (Resolver.ofGraph g').validate := h.readsAlike.validate_eq

/-! ## Schemas -/

theorem memberSchema_eq (h : g.Equivalent g') :
    (Resolver.ofGraph g).memberSchema = (Resolver.ofGraph g').memberSchema := by
  funext struct slot
  unfold Resolver.memberSchema
  rw [h.resolveSlot_eq]
  simp only [Resolver.graph_ofGraph]
  rw [h.member?_eq]

theorem structSchema_eq (h : g.Equivalent g') (fuel : Nat) :
    (Resolver.ofGraph g).structSchema fuel = (Resolver.ofGraph g').structSchema fuel := by
  induction fuel with
  | zero => rfl
  | succ fuel ih =>
      funext path ref
      rw [Resolver.structSchema, Resolver.structSchema, ih, h.memberSchema_eq,
        Resolver.graph_ofGraph, Resolver.graph_ofGraph, h.fieldsOf_eq]

theorem paramSchema_eq (h : g.Equivalent g') :
    (Resolver.ofGraph g).paramSchema = (Resolver.ofGraph g').paramSchema := by
  funext key
  rw [Resolver.paramSchema, Resolver.paramSchema, h.structSchema_eq, h.memberSchema_eq,
    Resolver.graph_ofGraph, Resolver.graph_ofGraph, h.length_nodes]

theorem specSchema_eq (h : g.Equivalent g') :
    (Resolver.ofGraph g).specSchema = (Resolver.ofGraph g').specSchema := by
  unfold Resolver.specSchema
  rw [h.paramSchema_eq]
  simp only [Resolver.graph_ofGraph]
  rw [h.sortedParams_eq, h.nameOf_eq]

/-- The same resource definition is derived, and so the same schema of the values. -/
theorem native_eq (h : g.Equivalent g') (source declarations : String) :
    SchemaCompiler.native source declarations (.ofGraph g) =
      SchemaCompiler.native source declarations (.ofGraph g') := by
  rw [SchemaCompiler.native, SchemaCompiler.native, h.specSchema_eq]

/-! ## Go files -/

theorem fieldDecls_eq (h : g.Equivalent g') :
    Go.fieldDecls (.ofGraph g) = Go.fieldDecls (.ofGraph g') := by
  funext slots
  unfold Go.fieldDecls
  rw [h.resolveSlot_eq]
  simp only [Resolver.graph_ofGraph]
  rw [h.member?_eq]

theorem specDecl_eq (h : g.Equivalent g') :
    Go.specDecl (.ofGraph g) = Go.specDecl (.ofGraph g') := by
  unfold Go.specDecl
  rw [h.fieldDecls_eq]
  simp only [Resolver.graph_ofGraph]
  rw [h.sortedParams_eq, h.nameOf_eq]

theorem structDecl_eq (h : g.Equivalent g') :
    Go.structDecl (.ofGraph g) = Go.structDecl (.ofGraph g') := by
  funext ref
  unfold Go.structDecl
  rw [h.fieldDecls_eq]
  simp only [Resolver.graph_ofGraph]
  rw [h.fieldsOf_eq, h.node?]

theorem enumDecl_eq (h : g.Equivalent g') :
    Go.enumDecl (.ofGraph g) = Go.enumDecl (.ofGraph g') := by
  funext ref
  rw [Go.enumDecl, Go.enumDecl, Resolver.graph_ofGraph, Resolver.graph_ofGraph, h.node?]

theorem file_eq (h : g.Equivalent g') : Go.file (.ofGraph g) = Go.file (.ofGraph g') := by
  funext package
  unfold Go.file Go.structDecls
  rw [h.specDecl_eq, h.structTypes_eq, h.structDecl_eq, h.enumTypes_eq, h.enumDecl_eq]

theorem declarations_eq (h : g.Equivalent g') :
    Go.declarations (.ofGraph g) = Go.declarations (.ofGraph g') := by
  funext package
  rw [Go.declarations, Go.declarations, h.file_eq]

end TypeGraph.Equivalent

end AnnotatedValues
