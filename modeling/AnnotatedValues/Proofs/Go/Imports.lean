import AnnotatedValues.Proofs.Go.Declared
import AnnotatedValues.Proofs.Go.Lines
import AnnotatedValues.Proofs.Resolved.Spelling

/-!
# Imports of a Go file

The type of a field is written as a name behind pointers, arrays and maps.  No
struct and no enumeration has the name of a type with a meaning of its own, so
the text of a field type tells which of these it is made of.  A file imports the
package of the root type and those of the names in its field types, and nothing
else, and it declares the struct without fields if a field type has its name.
-/

namespace AnnotatedValues

open Annotation (Scan)
open Fallible

/-- Identifiers of types start with a capital. -/
theorem Resolver.isCapital_ident {g : TypeGraph} {key : String}
    (hkey : (Resolver.ofGraph g).IsType key) :
    Identifier.IsCapital ((Resolver.ofGraph g).ident key) := by
  have hcapital := Identifier.isCapital_ofGraph _ (ident_mem_ofGraph hkey)
  exact hcapital

namespace Go

/-! ## Texts that start differently -/

/-- None of the texts starts with another. -/
def PrefixFree (texts : List String) : Prop :=
  ∀ s ∈ texts, ∀ t ∈ texts, s.toList <+: t.toList → s = t

instance (texts : List String) : Decidable (PrefixFree texts) :=
  inferInstanceAs (Decidable (∀ s ∈ texts, ∀ t ∈ texts, s.toList <+: t.toList → s = t))

theorem prefix_append (s rest : String) : s.toList <+: (s ++ rest).toList := by
  rw [String.toList_append]
  exact List.prefix_append _ _

/-- What a text starts with is one of them at most. -/
theorem PrefixFree.append_inj {texts : List String} (htexts : PrefixFree texts)
    {s t rest more : String} (hs : s ∈ texts) (ht : t ∈ texts) (h : s ++ rest = t ++ more) :
    s = t ∧ rest = more := by
  have hleft : s.toList <+: (t ++ more).toList := h ▸ prefix_append s rest
  have hsame : s = t := by
    rcases List.prefix_or_prefix_of_prefix hleft (prefix_append t more) with hle | hle
    · exact htexts s hs t ht hle
    · exact (htexts t ht s hs hle).symm
  subst hsame
  exact ⟨rfl, (String.append_right_inj s).mp h⟩

/-! ## Names in the text of a type -/

/-- What is written in front of the type inside a pointer, an array or a map. -/
def wrapperTexts : List String := ["*", "[]", "map[string]"]

/-- The text of a type consists of the name, behind any pointers, arrays and maps. -/
inductive Mentions (name : String) : String → Prop where
  | itself : Mentions name name
  | inside {wrapper text : String} (hwrapper : wrapper ∈ wrapperTexts)
      (hinner : Mentions name text) : Mentions name (wrapper ++ text)

/-- A text that does not start like the type of a pointer, an array or a map. -/
def IsBare (text : String) : Prop := ∀ wrapper ∈ wrapperTexts, ¬ wrapper.toList <+: text.toList

instance (text : String) : Decidable (IsBare text) :=
  inferInstanceAs (Decidable (∀ wrapper ∈ wrapperTexts, ¬ wrapper.toList <+: text.toList))

theorem not_isBare_append {wrapper text : String} (hwrapper : wrapper ∈ wrapperTexts) :
    ¬ IsBare (wrapper ++ text) := by
  exact fun h => h wrapper hwrapper (prefix_append wrapper text)

theorem isBare_of_isCapital {ident : String} (h : Identifier.IsCapital ident) : IsBare ident := by
  have hheads : ∀ wrapper ∈ wrapperTexts, ∃ c cs, wrapper.toList = c :: cs ∧ c.isUpper = false := by
    simp only [wrapperTexts, List.forall_mem_cons]
    exact ⟨⟨_, _, rfl, by decide⟩, ⟨_, _, rfl, by decide⟩, ⟨_, _, rfl, by decide⟩,
      List.forall_mem_nil _⟩
  obtain ⟨c, cs, hident, hc⟩ := h
  intro wrapper hwrapper hlead
  obtain ⟨d, ds, htext, hd⟩ := hheads wrapper hwrapper
  rw [hident, htext, List.cons_prefix_cons] at hlead
  rw [hlead.1, hc] at hd
  cases hd

/-- No wrapper starts like another. -/
theorem append_inj_of_mem_wrapperTexts {wrapper other text rest : String}
    (hwrapper : wrapper ∈ wrapperTexts) (hother : other ∈ wrapperTexts)
    (h : wrapper ++ text = other ++ rest) : text = rest := by
  have hfree : PrefixFree wrapperTexts := by decide
  exact (hfree.append_inj hwrapper hother h).2

variable {name text : String}

theorem mentions_append_iff (hname : IsBare name) {wrapper : String}
    (hwrapper : wrapper ∈ wrapperTexts) : Mentions name (wrapper ++ text) ↔ Mentions name text := by
  refine ⟨fun h => ?_, .inside hwrapper⟩
  generalize hwhole : wrapper ++ text = whole at h
  cases h with
  | itself => exact absurd hname (hwhole ▸ not_isBare_append hwrapper)
  | inside hother hinner => rwa [append_inj_of_mem_wrapperTexts hwrapper hother hwhole]

theorem mentions_iff_of_isBare (htext : IsBare text) : Mentions name text ↔ text = name := by
  constructor
  · intro h
    cases h with
    | itself => rfl
    | inside hwrapper _ => exact absurd htext (not_isBare_append hwrapper)
  · rintro rfl
    exact .itself

/-- A type mentions what is written of it without pointers, arrays and maps. -/
theorem mentions_typeText_iff (hname : IsBare name) {t : Resolved}
    (hleaf : IsBare (typeText t.leaf)) : Mentions name (typeText t) ↔ typeText t.leaf = name := by
  induction t with
  | pointer inner ih =>
      rw [typeText, mentions_append_iff hname (by decide)]
      exact ih hleaf
  | array inner ih =>
      rw [typeText, mentions_append_iff hname (by decide)]
      exact ih hleaf
  | map inner ih =>
      rw [typeText, mentions_append_iff hname (by decide)]
      exact ih hleaf
  | _ => exact mentions_iff_of_isBare hleaf

/-! ## Names of field types -/

/-- The struct or enumeration in the type has a name that is free for it: one that starts with a
capital and that the file does not use itself. -/
def HasFreeName (t : Resolved) : Prop :=
  ∀ key ident, t.user? = some (key, ident) →
    Identifier.IsCapital ident ∧ ident ∉ Identifier.taken

theorem hasFreeName_of_resolveSlot {g : TypeGraph} (hg : g.WellFormed) {slot : Slot} {t : Resolved}
    (h : (Resolver.ofGraph g).resolveSlot slot = .ok t) : HasFreeName t := by
  intro key ident huser
  obtain ⟨rfl, hkey⟩ := Resolver.isType_of_user? (r := .ofGraph g) hg h huser
  exact ⟨Resolver.isCapital_ident hkey, Resolver.ident_not_mem_taken hkey⟩

/-- The text of a type with a meaning of its own. -/
def semanticText (s : Semantic) : String := typeText (.semantic s)

theorem isBare_semanticText (s : Semantic) : IsBare (semanticText s) := by
  cases s <;> decide

theorem isBare_typeText_leaf {t : Resolved} (h : HasFreeName t) : IsBare (typeText t.leaf) := by
  induction t with
  | pointer inner ih => exact ih h
  | array inner ih => exact ih h
  | map inner ih => exact ih h
  | primitive p => cases p <;> decide
  | format format =>
      change IsBare "string"
      decide
  | semantic s => exact isBare_semanticText s
  | enum ref => exact isBare_of_isCapital (h _ _ rfl).1
  | struct ref => exact isBare_of_isCapital (h _ _ rfl).1

theorem semanticText_injective {s s' : Semantic} (h : semanticText s = semanticText s') :
    s = s' := by
  revert h
  cases s <;> cases s' <;> decide

/-- Names of types with a meaning of their own belong to packages, save one that is taken. -/
theorem ne_semanticText {ident : String} (hcapital : Identifier.IsCapital ident)
    (hfree : ident ∉ Identifier.taken) (s : Semantic) : ident ≠ semanticText s := by
  have hnames : ∀ s, semanticText s ∈ Identifier.taken ∨
      (semanticText s).toList.head?.map Char.isUpper = some false := by
    intro s
    cases s <;> decide
  rintro rfl
  rcases hnames s with htaken | hlower
  · exact hfree htaken
  · obtain ⟨c, cs, hident, hc⟩ := hcapital
    rw [hident, List.head?_cons, Option.map_some, hc] at hlower
    cases hlower

/-- The name in a type tells whether it has this meaning. -/
theorem typeText_leaf_eq_iff {t : Resolved} (h : HasFreeName t) (s : Semantic) :
    typeText t.leaf = semanticText s ↔ semantic? t = some s := by
  have hprimitive : ∀ p : Primitive, p.name ≠ semanticText s := by
    intro p
    cases p <;> cases s <;> decide
  have hformat : "string" ≠ semanticText s := hprimitive .string
  induction t with
  | pointer inner ih => exact ih h
  | array inner ih => exact ih h
  | map inner ih => exact ih h
  | primitive p => exact iff_of_false (hprimitive p) nofun
  | format format => exact iff_of_false hformat nofun
  | semantic s' =>
      constructor
      · intro htext
        rw [semanticText_injective htext]
        rfl
      · intro hmeaning
        cases hmeaning
        rfl
  | enum ref =>
      obtain ⟨hcapital, hfree⟩ := h _ _ rfl
      exact iff_of_false (ne_semanticText hcapital hfree s) nofun
  | struct ref =>
      obtain ⟨hcapital, hfree⟩ := h _ _ rfl
      exact iff_of_false (ne_semanticText hcapital hfree s) nofun

/-! ## Field types of a file -/

/-- The type of some field mentions the name. -/
def File.Mentions (f : File) (name : String) : Prop :=
  ∃ t ∈ f.fieldTypes, Go.Mentions name (typeText t)

variable {g : TypeGraph} {package : String} {f : File}

theorem hasFreeName_of_mem_fieldTypes (hg : g.WellFormed) (h : file (.ofGraph g) package = .ok f)
    {t : Resolved} (ht : t ∈ f.fieldTypes) : HasFreeName t := by
  obtain ⟨struct, hstruct, ht⟩ := List.mem_flatMap.mp ht
  obtain ⟨field, hfield, rfl⟩ := List.mem_map.mp ht
  obtain ⟨slot, hslot⟩ := exists_slot_of_field h hstruct hfield
  exact hasFreeName_of_resolveSlot hg hslot

/-- The text of a file says which meanings its field types have. -/
theorem File.mentions_iff (hg : g.WellFormed) (h : file (.ofGraph g) package = .ok f)
    (s : Semantic) : f.Mentions (semanticText s) ↔ ∃ t ∈ f.fieldTypes, semantic? t = some s := by
  refine exists_congr fun t => and_congr_right fun ht => ?_
  have hfree := hasFreeName_of_mem_fieldTypes hg h ht
  rw [mentions_typeText_iff (isBare_semanticText s) (isBare_typeText_leaf hfree),
    typeText_leaf_eq_iff hfree]

/-! ## Imports -/

/-- A type uses a package of one meaning if it has this meaning. -/
theorem uses_iff {p : Package} {s : Semantic}
    (honly : ∀ s', (qualified? s').map Prod.fst = some p ↔ s' = s) {t : Resolved} :
    uses p t = true ↔ semantic? t = some s := by
  unfold uses
  cases semantic? t with
  | none => simp
  | some s' =>
      rw [Option.bind_some, Option.some.injEq, ← honly s']
      cases qualified? s' <;> simp

theorem File.mem_imports {p : Package} :
    p ∈ f.imports ↔ p = .metav1 ∨ ∃ t ∈ f.fieldTypes, uses p t = true := by
  have hall : p ∈ Package.all := by cases p <;> decide
  rw [imports, List.mem_filter, Bool.or_eq_true, beq_iff_eq, List.any_eq_true, and_iff_right hall]

theorem File.mem_imports_iff_mentions (hg : g.WellFormed) (h : file (.ofGraph g) package = .ok f)
    {p : Package} (hp : p ≠ .metav1) {s : Semantic}
    (honly : ∀ s', (qualified? s').map Prod.fst = some p ↔ s' = s) :
    p ∈ f.imports ↔ f.Mentions (semanticText s) := by
  rw [mem_imports, or_iff_right hp, mentions_iff hg h]
  simp only [uses_iff honly]

theorem File.hasEmptyObject_iff :
    f.hasEmptyObject = true ↔ ∃ t ∈ f.fieldTypes, semantic? t = some .emptyObject := by
  simp only [hasEmptyObject, List.any_eq_true, usesEmptyObject, beq_iff_eq]

/-- The imports are in the order of their paths. -/
theorem File.pairwise_path_imports (f : File) : (f.imports.map Package.path).Pairwise (· < ·) := by
  have hall : (Package.all.map Package.path).Pairwise (· < ·) := by decide
  exact hall.sublist (List.filter_sublist.map _)

theorem File.count_metav1_imports (f : File) : f.imports.count .metav1 = 1 := by
  have hnodup : f.imports.Nodup := List.Nodup.filter _ (by decide)
  exact List.count_eq_one_of_mem hnodup (mem_imports.mpr (Or.inl rfl))

/-- The name of the struct without fields is declared by its own declaration only. -/
theorem emptyObject_mem_typeNames_iff (hg : g.WellFormed) (h : file (.ofGraph g) package = .ok f) :
    Identifier.emptyObject ∈ f.typeNames ↔ f.hasEmptyObject = true := by
  have hidents : Identifier.emptyObject ∉
      (Resolver.ofGraph g).declaredKeys.map (Resolver.ofGraph g).ident := by
    intro hmem
    obtain ⟨key, hkey, hident⟩ := List.mem_map.mp hmem
    refine Resolver.ident_not_mem_taken (Resolver.isType_of_mem_declaredKeys hg hkey) ?_
    rw [hident]
    decide
  have hroots : Identifier.emptyObject ≠ Identifier.root ∧
      Identifier.emptyObject ≠ Identifier.rootSpec := by decide
  rw [typeNames_eq hg h]
  cases f.hasEmptyObject <;> simp [hroots, hidents]

/-! ## The head of a file -/

/-- What an import block ends with. -/
def importsEnd : String := ")\n\n"

/-- The end of the block and the lines of the packages. -/
def importTexts : List String := importsEnd :: Package.all.map importText

theorem importText_mem_importTexts (p : Package) : importText p ∈ importTexts := by
  cases p <;> decide

theorem importText_injective {p q : Package} (h : importText p = importText q) : p = q := by
  revert h
  cases p <;> cases q <;> decide

theorem importText_ne_importsEnd (p : Package) : importText p ≠ importsEnd := by
  cases p <;> decide

/-- A block can be read in one way. -/
theorem imports_append_inj {imports others : List Package} {rest more : String}
    (h : String.join (imports.map importText) ++ (importsEnd ++ rest) =
      String.join (others.map importText) ++ (importsEnd ++ more)) : imports = others := by
  have hfree : PrefixFree importTexts := by decide
  have hend : importsEnd ∈ importTexts := List.mem_cons_self
  induction imports generalizing others with
  | nil =>
      cases others with
      | nil => rfl
      | cons q others =>
          rw [List.map_nil, String.join_nil, String.empty_append, List.map_cons, String.join_cons,
            String.append_assoc] at h
          have hsame := (hfree.append_inj hend (importText_mem_importTexts q) h).1
          exact absurd hsame.symm (importText_ne_importsEnd q)
  | cons p imports ih =>
      rw [List.map_cons, String.join_cons, String.append_assoc] at h
      cases others with
      | nil =>
          rw [List.map_nil, String.join_nil, String.empty_append] at h
          have hsame := (hfree.append_inj (importText_mem_importTexts p) hend h).1
          exact absurd hsame (importText_ne_importsEnd p)
      | cons q others =>
          rw [List.map_cons, String.join_cons, String.append_assoc] at h
          obtain ⟨hsame, hrest⟩ := hfree.append_inj (importText_mem_importTexts p)
            (importText_mem_importTexts q) h
          rw [importText_injective hsame, ih hrest]

/-- The head of a file tells which packages it imports. -/
theorem headText_append_inj {package : String} {imports others : List Package} {rest more : String}
    (h : headText package imports ++ rest = headText package others ++ more) : imports = others := by
  have hsplit : ∀ (imports : List Package) (rest : String), headText package imports ++ rest =
      terminated (headComments ++ ["package " ++ package, "", "import ("]) ++
        (String.join (imports.map importText) ++ (importsEnd ++ rest)) := by
    intro imports rest
    have hend : terminated [")", ""] = importsEnd := rfl
    rw [headText_eq, headLines, terminated_append, terminated_append,
      terminated_importLines, hend]
    simp only [String.append_assoc]
  rw [hsplit, hsplit] at h
  exact imports_append_inj ((String.append_right_inj _).mp h)

end Go

/-- The Go file of a graph has a line for each field, with the text of its type.  It imports, in the
order of their paths and each once, the package of the root type, that of quantities exactly if the
type of a field mentions them, and that of any object exactly if the type of a field mentions it; and
it declares the struct without fields exactly if the type of a field mentions that. -/
theorem TypeGraph.WellFormed.imports_exact {g : TypeGraph} (hg : g.WellFormed)
    {package text : String} (h : Go.declarations (.ofGraph g) package = .ok text) :
    ∃ f, Go.file (.ofGraph g) package = .ok f ∧
      (∃ imports, text = Go.headText package imports ++
        (Go.trimmedEnd (String.join (f.typeDecls.map Go.TypeDecl.text)) ++ "\n")) ∧
      (text = Go.terminated f.lines ∧
        ∀ struct ∈ f.structs, ∀ field ∈ struct.fields, field.line ∈ f.lines) ∧
      (Identifier.emptyObject ∈ f.typeNames ↔ f.Mentions "Emptyobject") ∧
      ∀ imports body, text = Go.headText package imports ++ body →
        (.resource ∈ imports ↔ f.Mentions "resource.Quantity") ∧
          (.runtime ∈ imports ↔ f.Mentions "k8sRuntime.RawExtension") ∧
          imports.count .metav1 = 1 ∧ (imports.map Go.Package.path).Pairwise (· < ·) := by
  obtain ⟨f, hf, rfl⟩ := map_eq_ok_iff.mp h
  have hpackage : f.package = package := by
    obtain ⟨_, _, -, -, rfl⟩ := Go.file_eq_ok_iff.mp hf
    rfl
  have htext : f.text = Go.headText package f.imports ++
      (Go.trimmedEnd (String.join (f.typeDecls.map Go.TypeDecl.text)) ++ "\n") := by
    rw [Go.File.text, f.bodyText_eq, hpackage, String.append_assoc]
  have hlines : ∀ struct ∈ f.structs, ∀ field ∈ struct.fields, field.line ∈ f.lines :=
    fun struct hstruct field hfield => Go.File.mem_lines hstruct (Go.line_mem_lines hfield)
  refine ⟨f, hf, ⟨f.imports, htext⟩, ⟨f.text_eq, hlines⟩, ?_, ?_⟩
  · rw [Go.emptyObject_mem_typeNames_iff hg hf, Go.File.hasEmptyObject_iff]
    exact (Go.File.mentions_iff hg hf .emptyObject).symm
  · intro imports body hbody
    rw [htext] at hbody
    obtain rfl := Go.headText_append_inj hbody
    refine ⟨?_, ?_, f.count_metav1_imports, f.pairwise_path_imports⟩
    · exact Go.File.mem_imports_iff_mentions hg hf (s := .quantity) (by decide) fun s => by
        cases s <;> decide
    · exact Go.File.mem_imports_iff_mentions hg hf (s := .object) (by decide) fun s => by
        cases s <;> decide

/-- Quantities in a map of lists. -/
def wrappedQuantity : String := "## @param \x7bmap[string][]quantity\x7d limits\n"

def limitsLine : String :=
  "\tLimits map[string][]resource.Quantity `json:\"limits,omitempty\"`"

theorem wrappedQuantity_file :
    ((TypeGraph.build (Scan.ofText wrappedQuantity.toList).rows).toOption.bind fun g =>
      (Go.file (.ofGraph g) "values").toOption.map fun f =>
        (f.package, f.imports, f.typeNames, f.structs.map fun s => s.fields.map (·.line))) =
      some ("values", [.resource, .metav1], ["Config", "ConfigSpec"], [[limitsLine]]) := by
  decide +kernel

/-- The file has a line with their type and imports their package, but not that of any object. -/
theorem imports_exact_wrappedQuantity :
    ∃ g f text, TypeGraph.build (Scan.ofText wrappedQuantity.toList).rows = .ok g ∧
      Go.file (.ofGraph g) "values" = .ok f ∧ Go.declarations (.ofGraph g) "values" = .ok text ∧
      text = Go.terminated f.lines ∧ limitsLine ∈ f.lines ∧
      f.Mentions "resource.Quantity" ∧ ¬ f.Mentions "k8sRuntime.RawExtension" ∧
      ¬ f.Mentions "Emptyobject" ∧
      ∀ imports body, text = Go.headText "values" imports ++ body →
        .resource ∈ imports ∧ .runtime ∉ imports ∧ imports.count .metav1 = 1 := by
  obtain ⟨g, hg, hfile⟩ := bind_toOption_eq_some_iff.mp wrappedQuantity_file
  obtain ⟨f, hf, hparts⟩ := map_toOption_eq_some_iff.mp hfile
  simp only [Prod.mk.injEq] at hparts
  obtain ⟨hpackage, himports, hnames, hfields⟩ := hparts
  have htext : Go.declarations (.ofGraph g) "values" = .ok f.text := by
    rw [Go.declarations, hf]
    rfl
  obtain ⟨f', hf', -, ⟨hlines, hwritten⟩, hempty, hblock⟩ :=
    (TypeGraph.WellFormed.build hg).imports_exact htext
  rw [hf] at hf'
  cases hf'
  have hhead : f.text = Go.headText "values" f.imports ++ (Go.trimmedEnd f.bodyText ++ "\n") := by
    rw [Go.File.text, hpackage, String.append_assoc]
  obtain ⟨hquantity, hobject, -, -⟩ := hblock f.imports _ hhead
  rw [himports] at hquantity hobject
  rw [hnames] at hempty
  have hmentions := hquantity.mp (by decide)
  have hfree : ¬ f.Mentions "k8sRuntime.RawExtension" := fun h => absurd (hobject.mpr h) (by decide)
  have hlimits : limitsLine ∈ f.lines := by
    obtain ⟨struct, hstruct, hline⟩ := List.mem_map.mp (hfields ▸ List.mem_singleton_self _)
    obtain ⟨field, hfield, hline⟩ := List.mem_map.mp (hline ▸ List.mem_singleton_self _)
    exact hline ▸ hwritten struct hstruct field hfield
  refine ⟨g, f, f.text, hg, hf, htext, hlines, hlimits, hmentions, hfree,
    fun h => absurd (hempty.mpr h) (by decide), ?_⟩
  intro imports body hbody
  obtain ⟨hquantity, hobject, honce, -⟩ := hblock imports body hbody
  exact ⟨hquantity.mpr hmentions, fun h => hfree (hobject.mp h), honce⟩

end AnnotatedValues
