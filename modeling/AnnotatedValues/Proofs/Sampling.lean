import AnnotatedValues.Proofs.Graph.Filling
import AnnotatedValues.Proofs.Resolved.Members
import AnnotatedValues.Proofs.Validation
import AnnotatedValues.Table.Build

/-!
# Outputs without samples

Types are resolved and values are checked without defaults, and tables show the
defaults of annotations only.  A graph from which the samples are dropped has the
same outputs, whichever documents they come from; and taking samples twice, or
from one document after another, only fills gaps.
-/

namespace AnnotatedValues

/-- The member without a default that was sampled. -/
def Member.unsampled (m : Member) : Member :=
  { m with default? := m.default?.filter fun d => d.source = .annotated }

theorem Member.annotated?_unsampled (m : Member) : m.unsampled.annotated? = m.annotated? := by
  rw [annotated?, unsampled, Option.filter_filter]
  simp only [Bool.and_self, annotated?]

namespace TypeGraph

/-! ## Graphs without samples -/

/-- The graph without the samples that were taken. -/
def unsampled (g : TypeGraph) : TypeGraph := g.mapMembers Member.unsampled

theorem unsampled_setSample (slot : Slot) (text : String) (g : TypeGraph) :
    (setSample slot text g).unsampled = g.unsampled := by
  refine mapMembers_updateMember Member.unsampled g slot fun m => ?_
  split
  · rfl
  · rename_i hgap
    rw [Bool.or_eq_true, not_or, Option.not_isSome_iff_eq_none] at hgap
    rw [Member.unsampled, Member.unsampled, hgap.1]
    rfl

theorem unsampled_populate (g : TypeGraph) (values : Document) :
    (g.populate values).unsampled = g.unsampled :=
  sampleEntries_induction (motive := fun g' => g'.unsampled = g.unsampled)
    (fun slot text g' h => (unsampled_setSample slot text g').trans h) [] none g rfl values.entries

theorem unsampled_foldl_populate (g : TypeGraph) (documents : List Document) :
    (documents.foldl populate g).unsampled = g.unsampled := by
  induction documents generalizing g with
  | nil => rfl
  | cons values documents ih => exact (ih (g.populate values)).trans (unsampled_populate g values)

variable (g : TypeGraph)

/-! ## Types and values -/

theorem resolveSlot_unsampled :
    (Resolver.ofGraph g.unsampled).resolveSlot = (Resolver.ofGraph g).resolveSlot :=
  resolveSlot_mapMembers g fun _ => rfl

theorem undefinedTypes_unsampled :
    (Resolver.ofGraph g.unsampled).undefinedTypes = (Resolver.ofGraph g).undefinedTypes :=
  undefinedTypes_mapMembers g fun _ => rfl

theorem validate_unsampled :
    (Resolver.ofGraph g.unsampled).validate = (Resolver.ofGraph g).validate :=
  Resolver.ReadsAlike.validate_eq
    { slotOf?_eq := slotOf?_mapMembers Member.unsampled g
      resolveSlot_eq := resolveSlot_unsampled g }

/-! ## Tables -/

theorem memberRows_unsampled :
    Table.memberRows (.ofGraph g.unsampled) = Table.memberRows (.ofGraph g) := by
  funext structRows path slot value?
  unfold Table.memberRows
  rw [resolveSlot_unsampled]
  simp only [Resolver.graph_ofGraph, unsampled, member?_mapMembers]
  cases g.member? slot with
  | none => rfl
  | some m =>
      simp only [Option.map_some, Option.getD_some, Member.annotated?_unsampled]
      rfl

theorem structRows_unsampled (fuel : Nat) :
    Table.structRows (.ofGraph g.unsampled) fuel = Table.structRows (.ofGraph g) fuel := by
  induction fuel with
  | zero => rfl
  | succ fuel ih =>
      funext path listing
      rw [Table.structRows, Table.structRows, ih, memberRows_unsampled, Resolver.graph_ofGraph,
        Resolver.graph_ofGraph, unsampled, fieldsOf_mapMembers, List.mapM_map]
      rfl

theorem paramRows_unsampled :
    Table.paramRows (.ofGraph g.unsampled) = Table.paramRows (.ofGraph g) := by
  funext values name
  unfold Table.paramRows
  rw [memberRows_unsampled, structRows_unsampled]
  simp only [Resolver.graph_ofGraph, unsampled, param?_mapMembers, length_nodes_mapMembers]

theorem tables_unsampled :
    (Resolver.ofGraph g.unsampled).tables = (Resolver.ofGraph g).tables := by
  funext sections values
  unfold Resolver.tables Table.ofSection
  rw [paramRows_unsampled]

/-! ## Samples and outputs -/

/-- Sampling a document fills gaps and changes nothing else; a document that was sampled has nothing
left to give, and its samples stay when others are taken.  Whatever documents are sampled one after
the other, only gaps are filled: slots have the same types, the same names are undefined, the same
documents are valid, with the same problems reported otherwise, and the tables of all documents are
the same. -/
theorem populate_only_fills (g : TypeGraph) (v w : Document) :
    g.Fills (g.populate v) ∧ (g.populate v).populate v = g.populate v ∧
      (∀ slot d, (g.populate v).default? slot = some d →
        ((g.populate v).populate w).default? slot = some d) ∧
      ∀ documents : List Document, g.Fills (documents.foldl populate g) ∧
        (Resolver.ofGraph (documents.foldl populate g)).resolveSlot =
            (Resolver.ofGraph g).resolveSlot ∧
          (Resolver.ofGraph (documents.foldl populate g)).undefinedTypes =
            (Resolver.ofGraph g).undefinedTypes ∧
          (Resolver.ofGraph (documents.foldl populate g)).validate =
            (Resolver.ofGraph g).validate ∧
          (Resolver.ofGraph (documents.foldl populate g)).tables = (Resolver.ofGraph g).tables := by
  refine ⟨fills_populate g v, (Fills.refl _).populate_eq_self, (fills_populate _ w).kept, ?_⟩
  intro documents
  have hsame := unsampled_foldl_populate g documents
  refine ⟨fills_foldl_populate g documents, ?_, ?_, ?_, ?_⟩
  · rw [← resolveSlot_unsampled, hsame, resolveSlot_unsampled]
  · rw [← undefinedTypes_unsampled, hsame, undefinedTypes_unsampled]
  · rw [← validate_unsampled, hsame, validate_unsampled]
  · rw [← tables_unsampled, hsame, tables_unsampled]

end TypeGraph

end AnnotatedValues
