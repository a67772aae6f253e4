import AnnotatedValues.Proofs.Go.Declared
import AnnotatedValues.Proofs.Schema.Compile
import AnnotatedValues.Proofs.Table.Build
import AnnotatedValues.Proofs.Table.Readme
import AnnotatedValues.Proofs.Validation

/-!
# When generation succeeds

Reading a values file finds every undefined name, so nothing that is derived
from the file later can fail for want of a type.  What is left to fail is the
check of the values and the search for the parameters section of a README.
-/

namespace AnnotatedValues

open Fallible

/-! ## Texts of a resource definition -/

namespace ResourceDefinition

/-- A definition is unchanged without its `spec` if it has no schema of the parameters. -/
theorem withoutSpec_eq_self_iff (d : ResourceDefinition) :
    d.withoutSpec = d ↔ ∀ parameters, d.parameters? ≠ .ok parameters := by
  obtain ⟨versions⟩ := d
  cases versions with
  | nil => exact iff_of_true rfl fun parameters h => nomatch h
  | cons version versions =>
      obtain ⟨name, schema⟩ := version
      cases schema with
      | object notes properties =>
          have hkept : withoutSpec ⟨⟨name, .object notes properties⟩ :: versions⟩ =
              ⟨⟨name, .object notes properties⟩ :: versions⟩ ↔
                properties.lookup "spec" = none := by
            simp only [withoutSpec, mk.injEq, List.cons.injEq, ResourceVersion.mk.injEq,
              Schema.object.injEq, true_and, and_true, List.filter_eq_self,
              List.lookup_eq_none_iff, bne_comm]
          rw [hkept]
          simp only [parameters?, Schema.properties]
          cases properties.lookup "spec" <;> simp
      | _ => exact iff_of_true rfl fun parameters h => nomatch h

/-- The schema of the values can be taken from a definition exactly if there is a `spec` in it. -/
theorem exists_valuesSchema?_iff (d : ResourceDefinition) :
    (∃ schema, d.valuesSchema? = .ok schema) ↔ d.withoutSpec ≠ d := by
  rw [Ne, withoutSpec_eq_self_iff]
  simp only [valuesSchema?, map_eq_ok_iff, not_forall, not_not]
  constructor
  · rintro ⟨_, parameters, hparameters, -⟩
    exact ⟨parameters, hparameters⟩
  · rintro ⟨parameters, hparameters⟩
    exact ⟨_, parameters, hparameters, rfl⟩

theorem withoutSpec_wrap_ne (spec : Schema) : (wrap spec).withoutSpec ≠ wrap spec :=
  (exists_valuesSchema?_iff _).mp ⟨_, map_eq_ok_iff.mpr ⟨spec.properties, rfl, rfl⟩⟩

end ResourceDefinition

namespace ValuesFile

theorem isSome_if {α : Type} (c : Bool) (a : α) : (if c then some a else none).isSome = c := by
  cases c <;> rfl

theorem isSome_of_definitionTexts {request : Request} {d : ResourceDefinition}
    {texts : Option String × Option String} (h : definitionTexts request d = .ok texts) :
    texts.1.isSome = request.definition ∧ texts.2.isSome = request.schema := by
  unfold definitionTexts at h
  cases hschema : request.schema with
  | true =>
      rw [if_pos hschema] at h
      obtain ⟨schema, -, h⟩ := bind_eq_ok_iff.mp h
      rw [pure_eq_ok_iff] at h
      subst h
      exact ⟨isSome_if _ _, rfl⟩
  | false =>
      rw [if_neg (Bool.eq_false_iff.mp hschema), pure_eq_ok_iff] at h
      subst h
      exact ⟨isSome_if _ _, rfl⟩

theorem exists_definitionTexts_iff {request : Request} {d : ResourceDefinition} :
    (∃ texts, definitionTexts request d = .ok texts) ↔
      (request.schema = true → d.withoutSpec ≠ d) := by
  unfold definitionTexts
  cases hschema : request.schema with
  | true =>
      rw [if_pos rfl, ← d.exists_valuesSchema?_iff]
      constructor
      · rintro ⟨texts, h⟩ -
        obtain ⟨schema, hvalues, -⟩ := bind_eq_ok_iff.mp h
        exact ⟨schema, mapError_eq_ok_iff.mp hvalues⟩
      · intro h
        obtain ⟨schema, hvalues⟩ := h rfl
        exact ⟨_, bind_eq_ok_iff.mpr ⟨schema, mapError_eq_ok_iff.mpr hvalues, rfl⟩⟩
  | false =>
      rw [if_neg Bool.false_ne_true]
      exact iff_of_true ⟨_, rfl⟩ nofun

variable {f : ValuesFile} {request : Request}

theorem isSome_of_compiled {compiler : SchemaCompiler} {declarations : String}
    {texts : Option String × Option String}
    (h : f.compiled request compiler declarations = .ok texts) :
    texts.1.isSome = request.definition ∧ texts.2.isSome = request.schema := by
  unfold compiled at h
  split at h
  · obtain ⟨d, -, h⟩ := bind_eq_ok_iff.mp h
    exact isSome_of_definitionTexts h
  · rename_i hneither
    cases h
    rw [Bool.not_eq_true, Bool.or_eq_false_iff] at hneither
    exact ⟨hneither.1.symm, hneither.2.symm⟩

/-- If a text of the resource definition is asked for, the definition can be derived, and it has a
`spec` if the schema of the values is. -/
def Compiles (f : ValuesFile) (request : Request) (compiler : SchemaCompiler)
    (declarations : String) : Prop :=
  (request.definition || request.schema) = true →
    ∃ d, compiler f.source declarations f.resolver = .ok d ∧
      (request.schema = true → d.withoutSpec ≠ d)

theorem exists_compiled_iff {compiler : SchemaCompiler} {declarations : String} :
    (∃ texts, f.compiled request compiler declarations = .ok texts) ↔
      f.Compiles request compiler declarations := by
  unfold compiled Compiles
  split
  · rename_i hasked
    rw [forall_prop_of_true hasked]
    constructor
    · rintro ⟨texts, h⟩
      obtain ⟨d, hd, htexts⟩ := bind_eq_ok_iff.mp h
      exact ⟨d, hd, exists_definitionTexts_iff.mp ⟨texts, htexts⟩⟩
    · rintro ⟨d, hd, hspec⟩
      obtain ⟨texts, htexts⟩ := exists_definitionTexts_iff.mpr hspec
      exact ⟨texts, bind_eq_ok_iff.mpr ⟨d, hd, htexts⟩⟩
  · rename_i hneither
    exact iff_of_true ⟨_, rfl⟩ fun hasked => absurd hasked hneither

theorem compiles_native (hf : f.resolver.Complete) (request : Request) (declarations : String) :
    f.Compiles request .native declarations := by
  intro _
  obtain ⟨spec, -, hnative⟩ := hf.exists_native f.source declarations
  exact ⟨_, hnative, fun _ => ResourceDefinition.withoutSpec_wrap_ne spec⟩

/-! ## The README -/

theorem exists_tables (hf : f.resolver.Complete) : ∃ tables, f.tables = .ok tables := by
  obtain ⟨tables, htables⟩ := hf.exists_tables f.sections f.values
  exact ⟨tables, mapError_eq_ok_iff.mpr htables⟩

theorem isSome_of_updatedReadme {readme? updated? : Option String}
    (h : f.updatedReadme readme? = .ok updated?) : updated?.isSome = readme?.isSome := by
  cases readme? with
  | none =>
      cases h
      rfl
  | some readme =>
      obtain ⟨tables, -, h⟩ := bind_eq_ok_iff.mp h
      obtain ⟨text, -, h⟩ := bind_eq_ok_iff.mp h
      rw [pure_eq_ok_iff] at h
      subst h
      rfl

theorem exists_updatedReadme_iff (hf : f.resolver.Complete) {readme? : Option String} :
    (∃ updated?, f.updatedReadme readme? = .ok updated?) ↔
      ∀ readme, readme? = some readme →
        ∃ line ∈ Text.lines readme.toList, Readme.IsParametersHeading line := by
  cases readme? with
  | none => simp [updatedReadme]
  | some readme =>
      obtain ⟨tables, htables⟩ := exists_tables hf
      simp only [Option.some.injEq, forall_eq', ← Readme.exists_update_iff tables,
        updatedReadme, bind_eq_ok_iff, pure_eq_ok_iff, htables, Except.ok.injEq, exists_eq_left']
      constructor
      · rintro ⟨_, text, htext, -⟩
        exact ⟨text, htext⟩
      · rintro ⟨text, htext⟩
        exact ⟨_, text, htext, rfl⟩

/-! ## Generation -/

theorem exists_declarations (hf : f.resolver.Complete) (package : String) :
    ∃ text, f.declarations package = .ok text := by
  obtain ⟨file, hfile⟩ := Go.exists_file hf package
  exact ⟨_, mapError_eq_ok_iff.mpr (map_eq_ok_iff.mpr ⟨file, hfile, rfl⟩)⟩

/-- What is generated, whatever derives the resource definition, is what was asked for. -/
theorem isSome_of_generateWith {compiler : SchemaCompiler} {artifacts : Artifacts}
    (h : f.generateWith compiler request = .ok artifacts) :
    artifacts.go?.isSome = request.go ∧ artifacts.definition?.isSome = request.definition ∧
      artifacts.schema?.isSome = request.schema ∧
        artifacts.readme?.isSome = request.readme?.isSome := by
  obtain ⟨_, -, h⟩ := bind_eq_ok_iff.mp h
  obtain ⟨declarations, -, h⟩ := bind_eq_ok_iff.mp h
  obtain ⟨texts, htexts, h⟩ := bind_eq_ok_iff.mp h
  obtain ⟨readme?, hreadme, h⟩ := bind_eq_ok_iff.mp h
  rw [pure_eq_ok_iff] at h
  subst h
  obtain ⟨hdefinition, hschema⟩ := isSome_of_compiled htexts
  exact ⟨isSome_if _ _, hdefinition, hschema, isSome_of_updatedReadme hreadme⟩

/-- Beside the values and the README, only what derives the resource definition can fail. -/
theorem exists_generateWith_iff (hf : f.resolver.Complete) {compiler : SchemaCompiler} :
    (∃ artifacts, f.generateWith compiler request = .ok artifacts) ↔
      f.validate = .ok () ∧
      (∀ declarations, f.declarations request.package = .ok declarations →
        f.Compiles request compiler declarations) ∧
      ∀ readme, request.readme? = some readme →
        ∃ line ∈ Text.lines readme.toList, Readme.IsParametersHeading line := by
  rw [← exists_updatedReadme_iff hf]
  obtain ⟨declarations, hdeclarations⟩ := exists_declarations hf request.package
  simp only [hdeclarations, Except.ok.injEq, forall_eq', ← exists_compiled_iff]
  constructor
  · rintro ⟨artifacts, h⟩
    obtain ⟨_, hvalid, h⟩ := bind_eq_ok_iff.mp h
    obtain ⟨_, hwritten, h⟩ := bind_eq_ok_iff.mp h
    obtain rfl := Except.ok.inj (hdeclarations.symm.trans hwritten)
    obtain ⟨texts, htexts, h⟩ := bind_eq_ok_iff.mp h
    obtain ⟨readme?, hreadme, -⟩ := bind_eq_ok_iff.mp h
    exact ⟨hvalid, ⟨texts, htexts⟩, readme?, hreadme⟩
  · rintro ⟨hvalid, ⟨texts, htexts⟩, readme?, hreadme⟩
    exact ⟨_, bind_eq_ok_iff.mpr ⟨(), hvalid, bind_eq_ok_iff.mpr ⟨declarations, hdeclarations,
      bind_eq_ok_iff.mpr ⟨texts, htexts, bind_eq_ok_iff.mpr ⟨readme?, hreadme, rfl⟩⟩⟩⟩⟩

theorem exists_generate_iff (hf : f.resolver.Complete) :
    (∃ artifacts, f.generate request = .ok artifacts) ↔
      f.validate = .ok () ∧ ∀ readme, request.readme? = some readme →
        ∃ line ∈ Text.lines readme.toList, Readme.IsParametersHeading line := by
  rw [generate, exists_generateWith_iff hf]
  exact and_congr_right'
    (and_iff_right fun declarations _ => compiles_native hf request declarations)

/-- Reading a values file and checking its values are all that can stop generation, beside a README
without a parameters section: types are never missing later, neither from the schema of any values
nor from the declarations, the resource definition or the tables. -/
theorem generation_is_gated {source text : String} (h : ofText source text = .ok f) :
    (∀ request, (∃ artifacts, f.generate request = .ok artifacts) ↔
      f.validate = .ok () ∧ ∀ readme, request.readme? = some readme →
        ∃ line ∈ Text.lines readme.toList, Readme.IsParametersHeading line) ∧
    (∀ request artifacts, f.generate request = .ok artifacts →
      artifacts.go?.isSome = request.go ∧ artifacts.definition?.isSome = request.definition ∧
        artifacts.schema?.isSome = request.schema ∧
          artifacts.readme?.isSome = request.readme?.isSome) ∧
    (∀ values error, f.resolver.validate values = .error error →
      ∃ issues, error = .validation issues ∧ ∀ name path, Issue.noSchema name path ∉ issues) ∧
    (∀ package, ∃ declarations, f.declarations package = .ok declarations) ∧
    (∀ unit declarations, ∃ d, SchemaCompiler.native unit declarations f.resolver = .ok d) ∧
    ∃ tables, f.tables = .ok tables := by
  have hf := complete_of_ofText h
  refine ⟨fun request => exists_generate_iff hf, fun request artifacts => isSome_of_generateWith,
    ?_, exists_declarations hf, ?_, exists_tables hf⟩
  · intro values error herror
    unfold Resolver.validate at herror
    split at herror
    · cases herror
    · cases herror
      exact ⟨_, rfl, fun name path => Resolver.noSchema_not_mem_issues hf values⟩
  · intro unit declarations
    obtain ⟨spec, -, hnative⟩ := hf.exists_native unit declarations
    exact ⟨_, hnative⟩

/-- One parameter with a value of its type. -/
def portFile : String := "## @param \x7bint\x7d port\nport: 80\n"

theorem validate_portFile :
    (ofText "values.yaml" portFile).toOption.map (fun f => f.validate.toOption) =
      some (some ()) := by
  decide +kernel

/-- All that can be asked for is generated together. -/
theorem generate_portFile :
    ∃ f artifacts, ofText "values.yaml" portFile = .ok f ∧
      f.generate ⟨"values", true, true, true, some "## Parameters\n"⟩ = .ok artifacts ∧
        artifacts.go?.isSome = true ∧ artifacts.definition?.isSome = true ∧
          artifacts.schema?.isSome = true ∧ artifacts.readme?.isSome = true := by
  obtain ⟨f, hf, hvalid⟩ := map_toOption_eq_some_iff.mp validate_portFile
  rw [toOption_eq_some_iff] at hvalid
  have hheading : Readme.IsParametersHeading "## Parameters".toList :=
    ⟨2, Nat.le_refl 2, [' '], [], List.cons_ne_nil _ _,
      fun c hc => by rw [List.mem_singleton.mp hc]; rfl,
      fun c hc => absurd hc List.not_mem_nil, rfl⟩
  obtain ⟨hsuccess, hpresent, -⟩ := generation_is_gated hf
  obtain ⟨artifacts, hartifacts⟩ :=
    (hsuccess ⟨"values", true, true, true, some "## Parameters\n"⟩).mpr
      ⟨hvalid, fun readme hreadme => ⟨_, by cases hreadme; decide, hheading⟩⟩
  exact ⟨f, artifacts, hf, hartifacts, hpresent _ _ hartifacts⟩

end ValuesFile

end AnnotatedValues
