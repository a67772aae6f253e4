import AnnotatedValues.Proofs.Reading
import AnnotatedValues.Proofs.Resolved.Emitted

/-!
# Types that a Go file declares

A file is a head and a list of type declarations with different names: the root
type, the struct of the parameters, the structs and enumerations of the graph.
The type of a field is written as pointers, arrays and maps in front of an
identifier, and a struct or enumeration with this identifier is declared exactly
if its node gets a declaration.
-/

namespace AnnotatedValues

open Fallible

namespace Go

/-! ## Type declarations in the text of a file -/

/-- A declaration of a type: comment lines, the name, and what it stands for. -/
structure TypeDecl where
  comment : String
  name : String
  definition : String

def TypeDecl.text (d : TypeDecl) : String := d.comment ++ "type " ++ d.name ++ " " ++ d.definition

def rootDecl : TypeDecl :=
  ⟨"", Identifier.root, "struct \x7b\n" ++
    "\tmetav1.TypeMeta   `json:\",inline\"`\n" ++
    "\tmetav1.ObjectMeta `json:\"metadata,omitempty\"`\n\n" ++
    "\tSpec ConfigSpec `json:\"spec,omitempty\"`\n" ++
    "\x7d\n\n"⟩

def StructDecl.typeDecl (s : StructDecl) : TypeDecl :=
  ⟨docText s.ident s.doc, s.ident,
    "struct \x7b\n" ++ String.join (s.fields.map FieldDecl.text) ++ "\x7d\n\n"⟩

def EnumDecl.typeDecl (e : EnumDecl) : TypeDecl :=
  ⟨docText e.ident e.doc ++ "// +kubebuilder:validation:Enum=" ++ choicesText e.values ++ "\n",
    e.ident, e.base.name ++ "\n\n"⟩

def emptyObjectDecl : TypeDecl := ⟨"", Identifier.emptyObject, "struct\x7b\x7d\n\n"⟩

/-- The type declarations of a file in their order. -/
def File.typeDecls (f : File) : List TypeDecl :=
  rootDecl :: f.structs.map StructDecl.typeDecl ++ f.enums.map EnumDecl.typeDecl ++
    if f.hasEmptyObject then [emptyObjectDecl] else []

/-- The names of the types that a file declares. -/
def File.typeNames (f : File) : List String := f.typeDecls.map (·.name)

theorem StructDecl.text_typeDecl (s : StructDecl) : s.typeDecl.text = s.text := by
  have hopen : " struct \x7b\n" = " " ++ "struct \x7b\n" := rfl
  simp only [StructDecl.text, TypeDecl.text, StructDecl.typeDecl, hopen, String.append_assoc]

theorem EnumDecl.text_typeDecl (e : EnumDecl) : e.typeDecl.text = e.text := by
  simp only [EnumDecl.text, TypeDecl.text, EnumDecl.typeDecl, String.append_assoc]

theorem text_rootDecl : rootDecl.text = rootText := rfl

theorem text_emptyObjectDecl : emptyObjectDecl.text = emptyObjectText := rfl

/-- The body of a file is made of its type declarations. -/
theorem File.bodyText_eq (f : File) : f.bodyText = String.join (f.typeDecls.map TypeDecl.text) := by
  have hstructs : (f.structs.map StructDecl.typeDecl).map TypeDecl.text =
      f.structs.map StructDecl.text := by
    rw [List.map_map]
    exact List.map_congr_left fun s _ => s.text_typeDecl
  have henums : (f.enums.map EnumDecl.typeDecl).map TypeDecl.text =
      f.enums.map EnumDecl.text := by
    rw [List.map_map]
    exact List.map_congr_left fun e _ => e.text_typeDecl
  rw [File.bodyText, File.typeDecls, List.cons_append, List.cons_append, List.map_cons, List.map_append,
    List.map_append, hstructs, henums, String.join_cons, String.join_append, String.join_append,
    text_rootDecl]
  split
  · rw [List.map_singleton, String.join_cons, String.join_nil, text_emptyObjectDecl]
    simp only [String.append_assoc, String.append_empty]
  · rw [List.map_nil, String.join_nil]
    simp only [String.append_assoc]

/-! ## Field types in the text of a file -/

/-- The pointers, arrays and maps of a type, as they are written. -/
def wrappers : Resolved → String
  | .pointer inner => "*" ++ wrappers inner
  | .array inner => "[]" ++ wrappers inner
  | .map inner => "map[string]" ++ wrappers inner
  | _ => ""

/-- A struct or enumeration is written by its identifier behind the wrappers. -/
theorem typeText_eq {t : Resolved} {key ident : String} (h : t.user? = some (key, ident)) :
    typeText t = wrappers t ++ ident := by
  induction t with
  | pointer inner ih => rw [typeText, wrappers, ih h, String.append_assoc]
  | array inner ih => rw [typeText, wrappers, ih h, String.append_assoc]
  | map inner ih => rw [typeText, wrappers, ih h, String.append_assoc]
  | enum ref =>
      cases h
      exact String.empty_append.symm
  | struct ref =>
      cases h
      exact String.empty_append.symm
  | primitive p => cases h
  | format name => cases h
  | semantic s => cases h

/-! ## Structs of a file -/

variable {r : Resolver} {package : String} {f : File}

theorem resolveSlot_of_mem_fieldDecls {slots : List (String × Slot)} {fields : List FieldDecl}
    (h : fieldDecls r slots = .ok fields) {field : FieldDecl} (hfield : field ∈ fields) :
    ∃ slot ∈ slots.map Prod.snd, r.resolveSlot slot = .ok field.type := by
  obtain ⟨⟨⟨key, slot⟩, _, ident⟩, hmem, hdecl⟩ := exists_mem_of_mapM h hfield
  obtain ⟨type, htype, hdecl⟩ := bind_eq_ok_iff.mp hdecl
  rw [pure_eq_ok_iff] at hdecl
  subst hdecl
  exact ⟨slot, List.mem_map.mpr ⟨(key, slot), (List.of_mem_zip hmem).1, rfl⟩, htype⟩

/-- Fields have the names of their slots, and the identifiers that are assigned to these. -/
theorem map_names_fieldDecls {slots : List (String × Slot)} {fields : List FieldDecl}
    (h : fieldDecls r slots = .ok fields) :
    fields.map (fun field => (field.key, field.ident)) =
      Identifier.assignFree [] (slots.map fun s => (s.1, Identifier.withLetter 'X' s.1)) := by
  unfold fieldDecls at h
  dsimp only at h
  generalize hidents : Identifier.assignFree []
    (slots.map fun s => (s.1, Identifier.withLetter 'X' s.1)) = idents at h ⊢
  have hkeys : idents.map Prod.fst = slots.map Prod.fst := by
    rw [← hidents, Identifier.map_fst_assignFree, List.map_map]
    rfl
  have hzip : fields.map (fun field => (field.key, field.ident)) =
      (slots.zip idents).map (Prod.map Prod.fst Prod.snd) := by
    refine map_eq_of_mapM ?_ h
    intro pair field hdecl
    obtain ⟨type, -, hfield⟩ := bind_eq_ok_iff.mp hdecl
    rw [pure_eq_ok_iff] at hfield
    rw [← hfield]
    rfl
  rw [hzip, ← List.zip_map]
  exact (List.zip_of_prod hkeys rfl).symm

theorem exists_fieldDecls {slots : List (String × Slot)}
    (h : ∀ slot ∈ slots.map Prod.snd, ∃ t, r.resolveSlot slot = .ok t) :
    ∃ fields, fieldDecls r slots = .ok fields := by
  refine exists_mapM_eq_ok ?_
  rintro ⟨⟨key, slot⟩, _, ident⟩ hmem
  have hslot : slot ∈ slots.map Prod.snd :=
    List.mem_map.mpr ⟨(key, slot), (List.of_mem_zip hmem).1, rfl⟩
  obtain ⟨t, ht⟩ := h slot hslot
  exact ⟨_, bind_eq_ok_iff.mpr ⟨t, ht, rfl⟩⟩

theorem specDecl_eq_ok {spec : StructDecl} (h : specDecl r = .ok spec) :
    spec.ident = Identifier.rootSpec ∧ ∀ field ∈ spec.fields, ∃ key ∈ r.graph.params,
      r.resolveSlot (.node key) = .ok field.type := by
  obtain ⟨fields, hfields, hspec⟩ := bind_eq_ok_iff.mp h
  rw [pure_eq_ok_iff] at hspec
  subst hspec
  refine ⟨rfl, fun field hfield => ?_⟩
  obtain ⟨slot, hslot, htype⟩ := resolveSlot_of_mem_fieldDecls hfields hfield
  rw [List.map_map] at hslot
  obtain ⟨key, hkey, rfl⟩ := List.mem_map.mp hslot
  exact ⟨key, TypeGraph.mem_sortedParams.mp hkey, htype⟩

theorem structDecl_eq_ok {ref : StructRef} {struct : StructDecl}
    (h : structDecl r ref = .ok struct) :
    struct.ident = ref.ident ∧ ∀ field ∈ struct.fields, ∃ f ∈ r.graph.fieldsOf ref.key,
      r.resolveSlot (.field ref.key f.name) = .ok field.type := by
  obtain ⟨fields, hfields, hstruct⟩ := bind_eq_ok_iff.mp h
  rw [pure_eq_ok_iff] at hstruct
  subst hstruct
  refine ⟨rfl, fun field hfield => ?_⟩
  obtain ⟨slot, hslot, htype⟩ := resolveSlot_of_mem_fieldDecls hfields hfield
  rw [List.map_map] at hslot
  obtain ⟨f, hf, rfl⟩ := List.mem_map.mp hslot
  exact ⟨f, hf, htype⟩

theorem file_eq_ok_iff : file r package = .ok f ↔
    ∃ spec structs, specDecl r = .ok spec ∧ r.structTypes.mapM (structDecl r) = .ok structs ∧
      f = ⟨package, spec :: structs, r.enumTypes.map (enumDecl r)⟩ := by
  simp only [file, structDecls, bind_eq_ok_iff, pure_eq_ok_iff]
  constructor
  · rintro ⟨_, ⟨spec, hspec, structs, hstructs, rfl⟩, rfl⟩
    exact ⟨spec, structs, hspec, hstructs, rfl⟩
  · rintro ⟨spec, structs, hspec, hstructs, rfl⟩
    exact ⟨_, ⟨spec, hspec, structs, hstructs, rfl⟩, rfl⟩

theorem exists_specDecl (hr : r.Complete) : ∃ spec, specDecl r = .ok spec := by
  have hfields : ∃ fields, fieldDecls r
      (r.graph.sortedParams.map fun key => (r.graph.nameOf key, Slot.node key)) = .ok fields := by
    refine exists_fieldDecls fun slot hslot => ?_
    rw [List.map_map] at hslot
    obtain ⟨key, hkey, rfl⟩ := List.mem_map.mp hslot
    exact hr.exists_resolveSlot (TypeGraph.mem_sortedParams.mp hkey)
  obtain ⟨fields, hfields⟩ := hfields
  exact ⟨_, bind_eq_ok_iff.mpr ⟨fields, hfields, rfl⟩⟩

theorem exists_structDecl (hr : r.Complete) (ref : StructRef) :
    ∃ struct, structDecl r ref = .ok struct := by
  have hfields : ∃ fields, fieldDecls r
      ((r.graph.fieldsOf ref.key).map fun f => (f.name, Slot.field ref.key f.name)) =
        .ok fields := by
    refine exists_fieldDecls fun slot hslot => ?_
    rw [List.map_map] at hslot
    obtain ⟨f, hf, rfl⟩ := List.mem_map.mp hslot
    exact hr.exists_resolveSlot (TypeGraph.hasMember_of_mem_fieldsOf hf)
  obtain ⟨fields, hfields⟩ := hfields
  exact ⟨_, bind_eq_ok_iff.mpr ⟨fields, hfields, rfl⟩⟩

/-- If no name is undefined, there is a file. -/
theorem exists_file (hr : r.Complete) (package : String) : ∃ f, file r package = .ok f := by
  obtain ⟨spec, hspec⟩ := exists_specDecl hr
  have hall : ∀ ref ∈ r.structTypes, ∃ struct, structDecl r ref = .ok struct :=
    fun ref _ => exists_structDecl hr ref
  obtain ⟨structs, hstructs⟩ := exists_mapM_eq_ok hall
  exact ⟨_, file_eq_ok_iff.mpr ⟨spec, structs, hspec, hstructs, rfl⟩⟩

/-- A struct has the fields of some slots; if it is not that of the parameters, these are named like
fields of the graph. -/
theorem exists_slots_of_mem_structs (h : file r package = .ok f) {struct : StructDecl}
    (hstruct : struct ∈ f.structs) :
    ∃ slots, fieldDecls r slots = .ok struct.fields ∧
      (struct.ident = Identifier.rootSpec ∨
        ∀ slot ∈ slots, ∃ field ∈ r.graph.fields, field.name = slot.1) := by
  obtain ⟨spec, structs, hspec, hstructs, rfl⟩ := file_eq_ok_iff.mp h
  rcases List.mem_cons.mp hstruct with rfl | hstruct
  · obtain ⟨fields, hfields, hspec⟩ := bind_eq_ok_iff.mp hspec
    rw [pure_eq_ok_iff] at hspec
    subst hspec
    exact ⟨_, hfields, Or.inl rfl⟩
  · obtain ⟨ref, -, hdecl⟩ := exists_mem_of_mapM hstructs hstruct
    obtain ⟨fields, hfields, hdecl⟩ := bind_eq_ok_iff.mp hdecl
    rw [pure_eq_ok_iff] at hdecl
    subst hdecl
    refine ⟨_, hfields, Or.inr fun slot hslot => ?_⟩
    obtain ⟨field, hfield, rfl⟩ := List.mem_map.mp hslot
    exact ⟨field, (TypeGraph.mem_fieldsOf.mp hfield).1, rfl⟩

/-- The type of a field is that of a parameter, or of a field of a reached struct. -/
theorem resolveSlot_of_field (h : file r package = .ok f) {struct : StructDecl}
    (hstruct : struct ∈ f.structs) {field : FieldDecl} (hfield : field ∈ struct.fields) :
    (∃ key ∈ r.graph.params, r.resolveSlot (.node key) = .ok field.type) ∨
      ∃ owner ∈ r.reached, ∃ x ∈ r.graph.fieldsOf owner,
        r.resolveSlot (.field owner x.name) = .ok field.type := by
  obtain ⟨spec, structs, hspec, hstructs, rfl⟩ := file_eq_ok_iff.mp h
  rcases List.mem_cons.mp hstruct with rfl | hstruct
  · exact Or.inl ((specDecl_eq_ok hspec).2 field hfield)
  · obtain ⟨ref, href, hdecl⟩ := exists_mem_of_mapM hstructs hstruct
    obtain ⟨key, node, -, hreached, -, -, rfl⟩ := Resolver.mem_structTypes.mp href
    exact Or.inr ⟨key, hreached, (structDecl_eq_ok hdecl).2 field hfield⟩

theorem exists_slot_of_field (h : file r package = .ok f) {struct : StructDecl}
    (hstruct : struct ∈ f.structs) {field : FieldDecl} (hfield : field ∈ struct.fields) :
    ∃ slot, r.resolveSlot slot = .ok field.type := by
  rcases resolveSlot_of_field h hstruct hfield with ⟨_, -, ht⟩ | ⟨_, -, _, -, ht⟩
  · exact ⟨_, ht⟩
  · exact ⟨_, ht⟩

theorem mem_reached_of_field (hg : r.graph.WellFormed) (h : file r package = .ok f)
    {struct : StructDecl} (hstruct : struct ∈ f.structs) {field : FieldDecl}
    (hfield : field ∈ struct.fields) {ref : StructRef}
    (href : field.type.innermost? = some ref) : ref.key ∈ r.reached := by
  rcases resolveSlot_of_field h hstruct hfield with ⟨key, hkey, ht⟩ | ⟨owner, howner, x, hx, ht⟩
  · exact Resolver.mem_reached_of_mem_roots hg
      (Resolver.mem_roots.mpr (Or.inl ⟨key, hkey, _, ref, ht, href, rfl⟩))
  · exact Resolver.mem_reached_of_contains hg howner
      (Resolver.mem_successors.mpr ⟨x, hx, _, ref, ht, href, rfl⟩)

/-! ## Names of declared types -/

theorem map_ident_structDecls {refs : List StructRef} {structs : List StructDecl}
    (h : refs.mapM (structDecl r) = .ok structs) :
    structs.map (·.ident) = refs.map (·.ident) := by
  have hall := mapM_eq_ok_iff.mp h
  clear h
  induction hall with
  | nil => rfl
  | cons hhead _ ih => rw [List.map_cons, List.map_cons, ih, (structDecl_eq_ok hhead).1]

theorem map_ident_structs (h : file r package = .ok f) :
    f.structs.map (·.ident) = Identifier.rootSpec :: r.structTypes.map (·.ident) := by
  obtain ⟨spec, structs, hspec, hstructs, rfl⟩ := file_eq_ok_iff.mp h
  rw [List.map_cons, map_ident_structDecls hstructs, (specDecl_eq_ok hspec).1]

theorem typeNames_eq (hg : r.graph.WellFormed) (h : file r package = .ok f) :
    f.typeNames = Identifier.root :: Identifier.rootSpec :: (r.declaredKeys.map r.ident ++
      if f.hasEmptyObject then [Identifier.emptyObject] else []) := by
  have hstructs : (f.structs.map StructDecl.typeDecl).map (·.name) =
      Identifier.rootSpec :: r.structTypes.map (·.ident) := by
    rw [List.map_map, ← map_ident_structs h]
    rfl
  have henums : (f.enums.map EnumDecl.typeDecl).map (·.name) = r.enumTypes.map (·.ident) := by
    obtain ⟨spec, structs, -, -, rfl⟩ := file_eq_ok_iff.mp h
    rw [List.map_map, List.map_map]
    rfl
  rw [File.typeNames, File.typeDecls, List.cons_append, List.cons_append, List.map_cons,
    List.map_append, List.map_append, hstructs, henums, Resolver.map_ident_declaredKeys hg]
  cases f.hasEmptyObject with
  | true => simp [rootDecl, emptyObjectDecl]
  | false => simp [rootDecl]

/-- A file declares no type twice. -/
theorem nodup_typeNames {g : TypeGraph} (hg : g.WellFormed)
    (h : file (.ofGraph g) package = .ok f) : f.typeNames.Nodup := by
  have hidents : ((Resolver.ofGraph g).declaredKeys.map (Resolver.ofGraph g).ident).Nodup := by
    refine (Resolver.nodup_declaredKeys hg).map_on fun key hkey other hother hsame => ?_
    exact Resolver.ident_injective (Resolver.isType_of_mem_declaredKeys hg hkey)
      (Resolver.isType_of_mem_declaredKeys hg hother) hsame
  have hall : (Identifier.taken ++
      (Resolver.ofGraph g).declaredKeys.map (Resolver.ofGraph g).ident).Nodup := by
    refine List.nodup_append.mpr ⟨by decide, hidents, ?_⟩
    rintro name htaken _ hname rfl
    obtain ⟨key, hkey, rfl⟩ := List.mem_map.mp hname
    exact Resolver.ident_not_mem_taken (Resolver.isType_of_mem_declaredKeys hg hkey) htaken
  rw [typeNames_eq hg h]
  cases f.hasEmptyObject with
  | true => exact (((List.perm_append_singleton _ _).cons _).cons _).nodup_iff.mpr hall
  | false =>
      rw [if_neg Bool.false_ne_true, List.append_nil]
      exact hall.sublist (((List.sublist_cons_self _ _).cons_cons _).cons_cons _)

/-- An identifier of a type is declared if its node gets a declaration. -/
theorem ident_mem_typeNames_iff {g : TypeGraph} (hg : g.WellFormed)
    (h : file (.ofGraph g) package = .ok f) {key : String} (hkey : (Resolver.ofGraph g).IsType key) :
    (Resolver.ofGraph g).ident key ∈ f.typeNames ↔ key ∈ (Resolver.ofGraph g).declaredKeys := by
  have hfree := Resolver.ident_not_mem_taken hkey
  simp only [Identifier.taken, List.mem_cons, not_or] at hfree
  rw [typeNames_eq hg h]
  constructor
  · intro hmem
    simp only [List.mem_cons, List.mem_append, hfree.1, hfree.2.1, false_or] at hmem
    rcases hmem with hmem | hmem
    · obtain ⟨other, hother, hsame⟩ := List.mem_map.mp hmem
      rwa [← Resolver.ident_injective (Resolver.isType_of_mem_declaredKeys hg hother) hkey hsame]
    · split at hmem
      · exact absurd (List.mem_singleton.mp hmem) hfree.2.2.1
      · cases hmem
  · intro hmem
    exact List.mem_cons_of_mem _ (List.mem_cons_of_mem _ (List.mem_append_left _
      (List.mem_map.mpr ⟨key, hmem, rfl⟩)))

/-- The struct or enumeration that a field refers to is declared once if its node gets a
declaration, and else not at all. -/
theorem count_typeNames_of_field {g : TypeGraph} (hg : g.WellFormed)
    (h : file (.ofGraph g) package = .ok f) {struct : StructDecl} (hstruct : struct ∈ f.structs)
    {field : FieldDecl} (hfield : field ∈ struct.fields) {key ident : String}
    (huser : field.type.user? = some (key, ident)) :
    ∃ node, g.node? key = some node ∧ f.typeNames.count ident = if node.isEmitted then 1 else 0 := by
  obtain ⟨slot, hslot⟩ := exists_slot_of_field h hstruct hfield
  obtain ⟨rfl, hkey⟩ := Resolver.isType_of_user? (r := .ofGraph g) hg hslot huser
  obtain ⟨node, hmem, -⟩ := id hkey
  have hnode := hg.node?_of_mem hmem
  have hreached : node.enum? = none → key ∈ (Resolver.ofGraph g).reached := fun henum =>
    mem_reached_of_field (r := .ofGraph g) hg h hstruct hfield
      (Resolver.innermost?_of_user? (r := .ofGraph g) hg hslot huser hnode henum)
  have hdeclared : (Resolver.ofGraph g).ident key ∈ f.typeNames ↔ node.isEmitted = true := by
    rw [ident_mem_typeNames_iff hg h hkey,
      Resolver.mem_declaredKeys (r := .ofGraph g) hg hnode]
    exact and_iff_left hreached
  refine ⟨node, hnode, ?_⟩
  rw [(nodup_typeNames hg h).count, if_congr hdeclared rfl rfl]

/-- Every struct or enumeration that the type of a field refers to is declared exactly once. -/
def File.ClosedUnderReferences (f : File) : Prop :=
  ∀ type ∈ f.fieldTypes, ∀ key ident, type.user? = some (key, ident) → f.typeNames.count ident = 1

end Go

namespace ValuesFile

/-- A values file that is read has a Go file.  It declares what a field type refers to exactly once
or not at all, and its references are closed exactly if all their nodes get a declaration. -/
theorem closedUnderReferences_iff_isEmitted {source text : String} {f : ValuesFile}
    (h : ofText source text = .ok f) (package : String) :
    ∃ file, Go.file f.resolver package = .ok file ∧ f.declarations package = .ok file.text ∧
      file.text = Go.headText package file.imports ++
        Go.trimmedEnd (String.join (file.typeDecls.map Go.TypeDecl.text)) ++ "\n" ∧
      (∀ type ∈ file.fieldTypes, ∀ key ident, type.user? = some (key, ident) →
        Go.typeText type = Go.wrappers type ++ ident ∧
          ∃ node, f.resolver.graph.node? key = some node ∧
            file.typeNames.count ident = if node.isEmitted then 1 else 0) ∧
      (file.ClosedUnderReferences ↔ ∀ type ∈ file.fieldTypes, ∀ key ident,
        type.user? = some (key, ident) →
          ∀ node, f.resolver.graph.node? key = some node → node.isEmitted = true) := by
  obtain ⟨g, hg, hresolver, -⟩ := exists_built_of_ofText h
  obtain ⟨file, hfile⟩ := Go.exists_file (complete_of_ofText h) package
  have hpackage : file.package = package := by
    obtain ⟨_, _, -, -, rfl⟩ := Go.file_eq_ok_iff.mp hfile
    rfl
  have hcount : ∀ type ∈ file.fieldTypes, ∀ key ident, type.user? = some (key, ident) →
      ∃ node, f.resolver.graph.node? key = some node ∧
        file.typeNames.count ident = if node.isEmitted then 1 else 0 := by
    intro type htype key ident huser
    obtain ⟨struct, hstruct, htype⟩ := List.mem_flatMap.mp htype
    obtain ⟨field, hfield, rfl⟩ := List.mem_map.mp htype
    rw [hresolver] at hfile ⊢
    exact Go.count_typeNames_of_field hg.wellFormed hfile hstruct hfield huser
  refine ⟨file, hfile, ?_, ?_, ?_, ?_⟩
  · rw [declarations, Go.declarations, hfile]
    rfl
  · rw [Go.File.text, Go.File.bodyText_eq, hpackage]
  · intro type htype key ident huser
    exact ⟨Go.typeText_eq huser, hcount type htype key ident huser⟩
  · constructor
    · intro hclosed type htype key ident huser node hnode
      obtain ⟨node', hnode', hnumber⟩ := hcount type htype key ident huser
      rw [hnode'] at hnode
      cases hnode
      rw [hclosed type htype key ident huser] at hnumber
      by_contra hplain
      rw [if_neg hplain] at hnumber
      cases hnumber
    · intro hemitted type htype key ident huser
      obtain ⟨node, hnode, hnumber⟩ := hcount type htype key ident huser
      rw [hnumber, if_pos (hemitted type htype key ident huser node hnode)]

/-- A struct inside an array behind a pointer. -/
def wrappedStruct : String := "## @field \x7bint\x7d Size.x\n## @param \x7b*[]Size\x7d size\n"

theorem wrappedStruct_fields :
    ((ofText "values.yaml" wrappedStruct).toOption.bind fun f =>
      (Go.file f.resolver "values").toOption.map fun file =>
        (file.fieldTypes.map Resolved.user?,
          (f.resolver.graph.node? "size").map Node.isEmitted)) =
      some ([some ("size", "Size"), none], some true) := by
  decide +kernel

/-- It is declared once. -/
theorem count_typeNames_wrappedStruct :
    ∃ f file type, ofText "values.yaml" wrappedStruct = .ok f ∧
      Go.file f.resolver "values" = .ok file ∧ type ∈ file.fieldTypes ∧
        Go.typeText type = Go.wrappers type ++ "Size" ∧ file.typeNames.count "Size" = 1 := by
  obtain ⟨f, hf, hfields⟩ := bind_toOption_eq_some_iff.mp wrappedStruct_fields
  obtain ⟨file, hfile, hfields⟩ := map_toOption_eq_some_iff.mp hfields
  obtain ⟨hfields, hemitted⟩ := Prod.mk.inj hfields
  obtain ⟨file', hfile', -, -, hcount, -⟩ := closedUnderReferences_iff_isEmitted hf "values"
  rw [hfile] at hfile'
  cases hfile'
  have hmem : some ("size", "Size") ∈ file.fieldTypes.map Resolved.user? := by
    rw [hfields]
    exact List.mem_cons_self
  obtain ⟨type, htype, huser⟩ := List.mem_map.mp hmem
  obtain ⟨htext, node, hnode, hnumber⟩ := hcount type htype "size" "Size" huser
  rw [hnode] at hemitted
  rw [if_pos (Option.some.inj hemitted)] at hnumber
  exact ⟨f, file, type, hf, hfile, htype, htext, hnumber⟩

/-- An enumeration without values that has fields. -/
def valuelessEnum : String :=
  "## @enum \x7bstring\x7d Size\n## @field \x7bint\x7d Size.x\n## @param \x7bSize\x7d size\n"

theorem valuelessEnum_fields :
    ((ofText "values.yaml" valuelessEnum).toOption.bind fun f =>
      (Go.file f.resolver "values").toOption.map fun file =>
        (file.fieldTypes.map Resolved.user?, file.typeNames)) =
      some ([some ("size", "Size")], ["Config", "ConfigSpec"]) := by
  decide +kernel

/-- A parameter can have it for its type, although it is not declared. -/
theorem not_closedUnderReferences_valuelessEnum :
    ∃ f file, ofText "values.yaml" valuelessEnum = .ok f ∧
      Go.file f.resolver "values" = .ok file ∧ ¬ file.ClosedUnderReferences := by
  obtain ⟨f, hf, hfields⟩ := bind_toOption_eq_some_iff.mp valuelessEnum_fields
  obtain ⟨file, hfile, hfields⟩ := map_toOption_eq_some_iff.mp hfields
  obtain ⟨hfields, hnames⟩ := Prod.mk.inj hfields
  refine ⟨f, file, hf, hfile, fun hclosed => ?_⟩
  have hmem : some ("size", "Size") ∈ file.fieldTypes.map Resolved.user? := by
    rw [hfields]
    exact List.mem_cons_self
  obtain ⟨type, htype, huser⟩ := List.mem_map.mp hmem
  have hcount := hclosed type htype "size" "Size" huser
  rw [hnames] at hcount
  revert hcount
  decide

end ValuesFile

end AnnotatedValues
