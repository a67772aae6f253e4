import AnnotatedValues.Proofs.Equivalence
import AnnotatedValues.Proofs.Go.Lines
import AnnotatedValues.Proofs.Graph.Order

/-!
# Outputs of rows in another order

Rows that declare nothing twice have one set of outputs, whatever their order:
what is undefined, what a values document is reported for, the Go file and the
resource definition, before and after samples.  A declared type and an
enumeration of one name must agree on the description: it is the later one of
the two that the Go file has.
-/

namespace AnnotatedValues

open Annotation Fallible

/-- Two graphs with the same undefined names, problems of values, Go files and resource definitions,
of which the schema of the values is a part. -/
structure SameOutputs (r r' : Resolver) : Prop where
  undefinedTypes : r.undefinedTypes = r'.undefinedTypes
  validate : ∀ values, r.validate values = r'.validate values
  declarations : ∀ package, Go.declarations r package = Go.declarations r' package
  definition : ∀ source declarations,
    SchemaCompiler.native source declarations r = SchemaCompiler.native source declarations r'

namespace TypeGraph

variable {g g' : TypeGraph} {rows rows' : List Row}

theorem Equivalent.sameOutputs (h : g.Equivalent g') (hg : g.Spelled) :
    SameOutputs (.ofGraph g) (.ofGraph g') where
  undefinedTypes := h.undefinedTypes_eq hg
  validate := congrFun h.validate_eq
  declarations := congrFun h.declarations_eq
  definition := h.native_eq

/-- Rows that declare nothing twice build graphs with the same outputs in any order, or none in
any order. -/
theorem Unrepeated.outputs_in_any_order (h : Unrepeated rows) (hdocs : OneDescription rows)
    (hperm : rows.Perm rows') :
    ((∃ g, build rows = .ok g) ↔ ∃ g', build rows' = .ok g') ∧
      ∀ g g', build rows = .ok g → build rows' = .ok g' →
        SameOutputs (.ofGraph g) (.ofGraph g') ∧ ∀ values,
          SameOutputs (.ofGraph (g.populate values)) (.ofGraph (g'.populate values)) := by
  refine ⟨exists_build_perm hperm, fun g g' hg hg' => ?_⟩
  have hequivalent : g.Equivalent g' := h.equivalent hdocs hperm hg hg'
  have hspelled : g.Spelled := h.spelled_build hg
  refine ⟨hequivalent.sameOutputs hspelled, fun values => ?_⟩
  exact (hequivalent.populate values).sameOutputs (hspelled.populate values)

/-- A parameter with fields under its own name and under that of its type. -/
def fieldRows : List Row :=
  [⟨.param, ["main"], "*Size", [], "", "", false, 1⟩,
    ⟨.field, ["main", "x"], "int", [], "", "", false, 2⟩,
    ⟨.field, ["Size", "y"], "Unit", [], "", "", false, 3⟩,
    ⟨.enum, ["Unit"], "string", ["cm"], "", "of lengths", false, 4⟩]

theorem unrepeated_fieldRows : Unrepeated fieldRows where
  names := by decide +kernel
  fields := by
    intro g hg
    have hplaced : ((build fieldRows).toOption.map fun g =>
        decide (fieldRows.Pairwise fun a b =>
          ∀ slot ∈ a.slot? g.ownerOf, ∀ other ∈ b.slot? g.ownerOf, slot ≠ other)) = some true := by
      decide +kernel
    rw [hg] at hplaced
    exact of_decide_eq_true (Option.some.inj hplaced)
  spelled := by decide +kernel

/-- A value for one of the fields. -/
def fieldValues : Document := .object [("main", .object [("x", .number (.int 3))])]

/-- Backwards these rows build another graph, with the same outputs. -/
theorem sameOutputs_fieldRows :
    ∃ g g', build fieldRows = .ok g ∧ build fieldRows.reverse = .ok g' ∧ g ≠ g' ∧
      SameOutputs (.ofGraph (g.populate fieldValues)) (.ofGraph (g'.populate fieldValues)) := by
  have hdocs : OneDescription fieldRows := by decide +kernel
  obtain ⟨hbuild, hsame⟩ :=
    unrepeated_fieldRows.outputs_in_any_order hdocs (List.reverse_perm fieldRows).symm
  have hmain : (build fieldRows).toOption.map (·.nodes.map Prod.fst) =
      some ["main", "size", "unit"] := by
    decide +kernel
  have hunit : (build fieldRows.reverse).toOption.map (·.nodes.map Prod.fst) =
      some ["unit", "main", "size"] := by
    decide +kernel
  obtain ⟨g, hg, hkeys⟩ := map_toOption_eq_some_iff.mp hmain
  obtain ⟨g', hg', hkeys'⟩ := map_toOption_eq_some_iff.mp hunit
  refine ⟨g, g', hg, hg', ?_, (hsame g g' hg hg').2 fieldValues⟩
  intro heq
  rw [heq, hkeys'] at hkeys
  exact absurd hkeys (by decide)

/-- One name as a declared type and as an enumeration, with two descriptions. -/
def describedRows : List Row :=
  [⟨.typedef, ["Size"], "struct", [], "", "in bytes", false, 1⟩,
    ⟨.enum, ["Size"], "string", ["small"], "", "by name", false, 2⟩]

theorem unrepeated_describedRows : Unrepeated describedRows where
  names := by decide
  fields := by
    intro g _
    exact .cons (fun _ _ _ hslot => by cases hslot) (List.pairwise_singleton _ _)
  spelled := by decide

/-- The file of these rows, with one of the descriptions. -/
def describedFile (doc : String) : Go.File :=
  ⟨"values", [⟨Identifier.rootSpec, "", []⟩], [⟨"Size", doc, .string, ["small"]⟩]⟩

/-- The description stands in the text between what does not depend on it. -/
theorem text_describedFile : ∃ before after : String, ∀ doc : String, doc.isEmpty = false →
    (describedFile doc).text = before ++ doc ++ after := by
  let before := Go.rootText ++ Go.StructDecl.text ⟨Identifier.rootSpec, "", []⟩ ++ "// " ++
    "Size" ++ " "
  let after := "\n" ++ Go.EnumDecl.text ⟨"Size", "", .string, ["small"]⟩
  have hafter : Text.trimEnd after.toList ≠ [] := by decide
  refine ⟨Go.headText "values" [.metav1] ++ before, Go.trimmedEnd after ++ "\n", ?_⟩
  intro doc hdoc
  have hbody : (describedFile doc).bodyText = before ++ doc ++ after := by
    simp [Go.File.bodyText, Go.File.hasEmptyObject, Go.File.fieldTypes, Go.EnumDecl.text,
      Go.docText, String.join, String.append_assoc, describedFile, before, after, hdoc,
      -String.reduceAppend]
  have himports : (describedFile doc).imports = [.metav1] := rfl
  rw [Go.File.text, hbody, Go.trimmedEnd_append _ hafter, himports]
  simp only [String.append_assoc]
  rfl

theorem file_describedRows :
    ((build describedRows).toOption.bind fun g =>
      (Go.file (.ofGraph (g.populate .null)) "values").toOption) =
        some (describedFile "by name") ∧
      ((build describedRows.reverse).toOption.bind fun g =>
        (Go.file (.ofGraph (g.populate .null)) "values").toOption) =
          some (describedFile "in bytes") := by
  decide +kernel

/-- These rows declare nothing twice, and yet the file depends on their order. -/
theorem declarations_describedRows :
    Unrepeated describedRows ∧ describedRows.Perm describedRows.reverse ∧
      ∃ g g', build describedRows = .ok g ∧ build describedRows.reverse = .ok g' ∧
        Go.declarations (.ofGraph (g.populate .null)) "values" ≠
          Go.declarations (.ofGraph (g'.populate .null)) "values" := by
  refine ⟨unrepeated_describedRows, (List.reverse_perm describedRows).symm, ?_⟩
  obtain ⟨hfile, hfile'⟩ := file_describedRows
  obtain ⟨g, hg, hname⟩ := bind_toOption_eq_some_iff.mp hfile
  obtain ⟨g', hg', hbytes⟩ := bind_toOption_eq_some_iff.mp hfile'
  rw [toOption_eq_some_iff] at hname hbytes
  refine ⟨g, g', hg, hg', ?_⟩
  rw [Go.declarations, Go.declarations, hname, hbytes]
  intro hsame
  obtain ⟨before, after, htext⟩ := text_describedFile
  have htexts : (describedFile "by name").text = (describedFile "in bytes").text :=
    Except.ok.inj hsame
  rw [htext _ (by decide), htext _ (by decide), String.append_left_inj,
    String.append_right_inj] at htexts
  exact absurd htexts (by decide)

end TypeGraph

end AnnotatedValues
