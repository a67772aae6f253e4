import AnnotatedValues.Proofs.Go.Declared
import AnnotatedValues.Proofs.Go.Lines
import AnnotatedValues.Proofs.Resolved.Spelling

/-!
# Names and texts of a Go file

What a file takes from a graph is on a single line: the names of its fields and
types, the formats, and all that is said in words.
-/

namespace AnnotatedValues

open Annotation.Scan Fallible

/-! ## What a graph and its types give -/

theorem TypeGraph.SingleLine.member {g : TypeGraph} (h : g.SingleLine) (slot : Slot) :
    ((g.member? slot).getD .blank).SingleLine := by
  cases slot with
  | node key =>
      rw [member?]
      cases hnode : g.node? key with
      | none => exact Member.singleLine_blank
      | some node => exact (h.nodes _ (mem_nodes_of_node? hnode)).member
  | field owner name =>
      rw [member?]
      cases hfield : g.field? owner name with
      | none => exact Member.singleLine_blank
      | some field => exact (h.fields _ (List.mem_of_find?_eq_some hfield)).member

theorem TypeGraph.SingleLine.doc {g : TypeGraph} (h : g.SingleLine) (key : String) :
    '\n' ∉ (((g.node? key).map (·.doc)).getD "").toList := by
  cases hnode : g.node? key with
  | none => exact List.not_mem_nil
  | some node => exact (h.nodes _ (mem_nodes_of_node? hnode)).doc

namespace Resolver

theorem mem_stringFormats_of_builtin? {name format : String}
    (h : builtin? name = some (.format format)) : format ∈ Builtin.stringFormats := by
  unfold builtin? at h
  split at h
  · cases h
  · split at h
    · rename_i hformat
      cases h
      exact List.contains_iff_mem.mp hformat
    · obtain ⟨_, -, hsemantic⟩ := Option.map_eq_some_iff.mp h
      cases hsemantic

theorem mem_stringFormats_of_resolveName {r : Resolver} {name format : String}
    (h : r.resolveName name = .ok (.format format)) : format ∈ Builtin.stringFormats := by
  unfold resolveName at h
  split at h
  · rename_i t hbuiltin
    cases h
    exact mem_stringFormats_of_builtin? hbuiltin
  · split at h
    · unfold contextual at h
      split at h <;> cases h
    · split at h
      · rename_i t hdeclared
        cases h
        unfold declared? at hdeclared
        split at hdeclared
        · cases hdeclared
        · split at hdeclared
          · cases hdeclared
          · split at hdeclared <;> cases hdeclared
      · cases h

/-- The format of a field is one of those that are built in. -/
theorem mem_stringFormats_of_resolveSlot {r : Resolver} (hg : r.graph.WellFormed) {slot : Slot}
    {t : Resolved} (h : r.resolveSlot slot = .ok t) {format : String}
    (hformat : t.leaf = .format format) : format ∈ Builtin.stringFormats := by
  rcases resolveSlot_cases h with ⟨type, -, htype⟩ | ⟨key, -, rfl⟩
  · have hname := resolveName_of_resolve hg htype
    rw [hformat] at hname
    exact mem_stringFormats_of_resolveName hname
  · cases hformat

theorem isSpelled_ident {g : TypeGraph} (hg : g.SingleLine) {key : String}
    (hkey : (ofGraph g).IsType key) : Identifier.IsSpelled ((ofGraph g).ident key) :=
  Identifier.isSpelled_ofGraph hg _ (ident_mem_ofGraph hkey)

end Resolver

namespace Go

/-! ## Fields -/

structure FieldDecl.SingleLine (f : FieldDecl) : Prop where
  ident : Identifier.IsSpelled f.ident
  key : IsName f.key
  member : f.member.SingleLine
  user : ∀ key ident, f.type.user? = some (key, ident) → Identifier.IsSpelled ident
  format : ∀ name, f.format? = some name → name ∈ Builtin.stringFormats

theorem FieldDecl.leaf_of_format? {f : FieldDecl} {name : String} (h : f.format? = some name) :
    f.type.leaf = .format name := by
  unfold FieldDecl.format? at h
  split at h
  · rename_i format hformat
    cases h
    cases htype : f.type with
    | pointer inner =>
        rw [htype] at hformat
        rw [Resolved.leaf, show inner = .format name from hformat]
        rfl
    | _ =>
        rw [htype] at hformat
        cases hformat
        all_goals rfl
  · cases h

variable {g : TypeGraph} {package : String} {f : File}

theorem singleLine_of_mem_fieldDecls (hg : g.WellFormed) (hline : g.SingleLine)
    {slots : List (String × Slot)} (hslots : ∀ s ∈ slots, IsName s.1) {fields : List FieldDecl}
    (h : fieldDecls (.ofGraph g) slots = .ok fields) : ∀ field ∈ fields, field.SingleLine := by
  intro field hfield
  obtain ⟨⟨⟨key, slot⟩, other, ident⟩, hmem, hdecl⟩ := exists_mem_of_mapM h hfield
  obtain ⟨hslot, hident⟩ := List.of_mem_zip hmem
  obtain ⟨type, htype, hdecl⟩ := bind_eq_ok_iff.mp hdecl
  rw [pure_eq_ok_iff] at hdecl
  subst hdecl
  have hbases : ∀ base ∈ slots.map fun s => (s.1, Identifier.withLetter 'X' s.1),
      Identifier.IsSpelled base.2 := by
    intro base hbase
    obtain ⟨s, hs, rfl⟩ := List.mem_map.mp hbase
    exact Identifier.isSpelled_withLetter (by decide) (hslots s hs).unbroken
  exact {
    ident := Identifier.isSpelled_assignFree hbases _ hident
    key := hslots _ hslot
    member := hline.member slot
    user := by
      intro owner name huser
      obtain ⟨rfl, hkey⟩ := Resolver.isType_of_user? (r := .ofGraph g) hg htype huser
      exact Resolver.isSpelled_ident hline hkey
    format := by
      intro name hname
      exact Resolver.mem_stringFormats_of_resolveSlot (r := .ofGraph g) hg htype
        (FieldDecl.leaf_of_format? hname) }

/-! ## Declarations -/

structure StructDecl.SingleLine (s : StructDecl) : Prop where
  ident : '\n' ∉ s.ident.toList
  doc : '\n' ∉ s.doc.toList
  fields : ∀ field ∈ s.fields, field.SingleLine

structure EnumDecl.SingleLine (e : EnumDecl) : Prop where
  ident : '\n' ∉ e.ident.toList
  doc : '\n' ∉ e.doc.toList

structure File.SingleLine (f : File) : Prop where
  structs : ∀ s ∈ f.structs, s.SingleLine
  enums : ∀ e ∈ f.enums, e.SingleLine

theorem singleLine_specDecl (hg : g.WellFormed) (hline : g.SingleLine) {spec : StructDecl}
    (h : specDecl (.ofGraph g) = .ok spec) : spec.SingleLine := by
  obtain ⟨fields, hfields, hspec⟩ := bind_eq_ok_iff.mp h
  rw [pure_eq_ok_iff] at hspec
  subst hspec
  have hident : '\n' ∉ Identifier.rootSpec.toList := by decide
  refine ⟨hident, List.not_mem_nil, singleLine_of_mem_fieldDecls hg hline ?_ hfields⟩
  intro s hs
  obtain ⟨key, hkey, rfl⟩ := List.mem_map.mp hs
  obtain ⟨node, hnode, -⟩ := hg.mem_params.mp (TypeGraph.mem_sortedParams.mp hkey)
  change IsName (g.nameOf key)
  rw [TypeGraph.nameOf, hnode]
  exact (hline.nodes _ (TypeGraph.mem_nodes_of_node? hnode)).name

theorem singleLine_structDecl (hg : g.WellFormed) (hline : g.SingleLine) {ref : StructRef}
    (href : ref ∈ (Resolver.ofGraph g).structTypes) {struct : StructDecl}
    (h : structDecl (.ofGraph g) ref = .ok struct) : struct.SingleLine := by
  obtain ⟨fields, hfields, hstruct⟩ := bind_eq_ok_iff.mp h
  rw [pure_eq_ok_iff] at hstruct
  subst hstruct
  obtain ⟨key, -, -, hreached, -, -, rfl⟩ := Resolver.mem_structTypes.mp href
  have hident := Resolver.isSpelled_ident hline (Resolver.isType_of_mem_reached hg hreached)
  refine ⟨hident.unbroken.newline_not_mem, hline.doc key,
    singleLine_of_mem_fieldDecls hg hline ?_ hfields⟩
  intro s hs
  obtain ⟨field, hfield, rfl⟩ := List.mem_map.mp hs
  exact (hline.fields _ (TypeGraph.mem_fieldsOf.mp hfield).1).name

theorem singleLine_enumDecl (hg : g.WellFormed) (hline : g.SingleLine) {ref : EnumRef}
    (href : ref ∈ (Resolver.ofGraph g).enumTypes) : (enumDecl (.ofGraph g) ref).SingleLine := by
  obtain ⟨key, -, -, -, -, henum⟩ := (Resolver.mem_enumTypes (r := .ofGraph g) hg).mp href
  obtain ⟨node, decl, hnode, hdecl, -, -, hident⟩ := Resolver.enumRef?_eq_some henum
  have hkey : (Resolver.ofGraph g).IsType key :=
    ⟨node, TypeGraph.mem_nodes_of_node? hnode, by simp [Identifier.isNamedType, hdecl]⟩
  have hspelled := Resolver.isSpelled_ident hline hkey
  rw [← hident] at hspelled
  exact ⟨hspelled.unbroken.newline_not_mem, hline.doc ref.key⟩

/-- The names and texts in the file of such a graph. -/
theorem singleLine_file (hg : g.WellFormed) (hline : g.SingleLine)
    (h : file (.ofGraph g) package = .ok f) : f.SingleLine := by
  obtain ⟨spec, structs, hspec, hstructs, rfl⟩ := file_eq_ok_iff.mp h
  refine ⟨fun s hs => ?_, fun e he => ?_⟩
  · rcases List.mem_cons.mp hs with rfl | hs
    · exact singleLine_specDecl hg hline hspec
    · obtain ⟨ref, href, hdecl⟩ := exists_mem_of_mapM hstructs hs
      exact singleLine_structDecl hg hline href hdecl
  · obtain ⟨ref, href, rfl⟩ := List.mem_map.mp he
    exact singleLine_enumDecl hg hline href

end Go

end AnnotatedValues
