import AnnotatedValues.Proofs.Graph.Texts
import AnnotatedValues.Proofs.Resolved.Resolution
import AnnotatedValues.ValuesFile

/-!
# Values files that are read

A file is read if its rows make a graph, its document has values, and the graph
with the samples of these values leaves no name undefined.
-/

namespace AnnotatedValues.ValuesFile

open Annotation Fallible

theorem exists_build_of_ofText {source text : String} {f : ValuesFile}
    (h : ofText source text = .ok f) :
    ∃ g, TypeGraph.build (Scan.ofText text.toList).rows = .ok g ∧
      f.resolver = .ofGraph (g.populate f.values) ∧ f.resolver.undefinedTypes = [] := by
  obtain ⟨g, hg, h⟩ := bind_eq_ok_iff.mp h
  obtain ⟨values, -, h⟩ := bind_eq_ok_iff.mp h
  dsimp only at h
  split at h
  · rename_i hdefined
    have hf := Except.ok.inj h
    subst hf
    exact ⟨g, hg, rfl, hdefined⟩
  · cases h

theorem exists_built_of_ofText {source text : String} {f : ValuesFile}
    (h : ofText source text = .ok f) :
    ∃ g, g.Built ∧ f.resolver = .ofGraph g ∧ f.resolver.undefinedTypes = [] := by
  obtain ⟨g, hg, hresolver, hdefined⟩ := exists_build_of_ofText h
  exact ⟨_, (TypeGraph.Built.rows hg).populate f.values, hresolver, hdefined⟩

theorem complete_of_ofText {source text : String} {f : ValuesFile}
    (h : ofText source text = .ok f) : f.resolver.Complete := by
  obtain ⟨g, hg, hresolver, hdefined⟩ := exists_built_of_ofText h
  refine ⟨?_, hdefined⟩
  rw [hresolver]
  exact hg.wellFormed

/-- The names in the graph of a file are names of its rows. -/
theorem singleLine_graph {source text : String} {f : ValuesFile} (h : ofText source text = .ok f) :
    f.resolver.graph.SingleLine := by
  obtain ⟨g, hg, hresolver, -⟩ := exists_build_of_ofText h
  rw [hresolver]
  exact (TypeGraph.SingleLine.build (fun _ => Scan.singleLine_of_mem_ofText) hg).populate f.values

end AnnotatedValues.ValuesFile
