import AnnotatedValues.Proofs.Graph.Equivalence
import AnnotatedValues.Proofs.Graph.Rows
import AnnotatedValues.Proofs.Resolved.Equivalence
import Mathlib.Data.List.Pairwise

/-!
# Rows in another order

Rows that declare nothing twice, in which every name has one spelling, build
equivalent graphs in every order.  For then two sayings about one name commute:
one parameter, one declared type and one enumeration each leave to a node what
the others give it.  The one thing that a declared type and an enumeration of
one name both give is the description of the type, on which they must agree.
-/

namespace AnnotatedValues

open Annotation Fallible

namespace Annotation.Row

/-- The names in a row, a parameter's own excepted, that can be names of nodes. -/
def mentionedNames (row : Row) : List String :=
  (row.declaredName? .typedef).toList ++ (row.declaredName? .enum).toList ++
    (row.fieldPath?.map Prod.fst).toList ++
    if (row.declaredName? .param).isSome || row.fieldPath?.isSome then
      row.type?.toList.flatMap fun type => type.mentions.map Saying.name
    else []

theorem mem_mentionedNames {row : Row} {name : String} :
    name ∈ row.mentionedNames ↔
      row.declaredName? .typedef = some name ∨ row.declaredName? .enum = some name ∨
      (∃ field, row.fieldPath? = some (name, field)) ∨
      ((row.declaredName? .param).isSome = true ∨ row.fieldPath?.isSome = true) ∧
        ∃ type, row.type? = some type ∧ Builtin.isName type.base = false ∧ name = type.base := by
  have htypes : (name ∈ row.type?.toList.flatMap fun type => type.mentions.map Saying.name) ↔
      ∃ type, row.type? = some type ∧ Builtin.isName type.base = false ∧ name = type.base := by
    simp only [List.mem_flatMap, Option.mem_toList, List.mem_map, TypeExpr.mem_mentions]
    constructor
    · rintro ⟨type, htype, _, ⟨hbase, rfl⟩, rfl⟩
      exact ⟨type, htype, hbase, rfl⟩
    · rintro ⟨type, htype, hbase, rfl⟩
      exact ⟨type, htype, _, ⟨hbase, rfl⟩, rfl⟩
  rw [mentionedNames]
  simp only [List.mem_append, Option.mem_toList, Option.map_eq_some_iff, List.mem_ite_nil_right,
    Bool.or_eq_true, htypes, Prod.exists, exists_and_right, exists_eq_right, or_assoc]

example : mentionedNames ⟨.field, ["Gpu", "size"], "[]Unit", [], "", "", false, 1⟩ =
    ["Gpu", "Unit"] := by decide

end Annotation.Row

/-- Whether something is said to be a parameter. -/
def Saying.isParam : Saying → Bool
  | .param _ _ _ => true
  | .mention _ | .typedef _ _ | .enum _ _ _ => false

namespace TypeGraph

variable {g g' : TypeGraph} {rows rows' : List Row}

/-- No parameter, declared type, enumeration or field is declared twice, and no name has two
spellings, but that a parameter may spell its own as it likes. -/
structure Unrepeated (rows : List Row) : Prop where
  names : ∀ kind ∈ [Kind.param, .typedef, .enum], rows.Pairwise fun a b =>
    ∀ name ∈ a.declaredName? kind, ∀ other ∈ b.declaredName? kind, keyOf name ≠ keyOf other
  fields : ∀ g, build rows = .ok g → rows.Pairwise fun a b =>
    ∀ slot ∈ a.slot? g.ownerOf, ∀ other ∈ b.slot? g.ownerOf, slot ≠ other
  spelled : ∀ name ∈ rows.flatMap Row.mentionedNames, ∀ other ∈ rows.flatMap Row.mentionedNames,
    keyOf name = keyOf other → name = other

/-- A declared type and an enumeration of one name have one description. -/
def OneDescription (rows : List Row) : Prop :=
  ∀ a ∈ rows, ∀ b ∈ rows, ∀ name ∈ a.declaredName? .typedef, ∀ other ∈ b.declaredName? .enum,
    keyOf name = keyOf other → a.description = b.description

instance (rows : List Row) : Decidable (OneDescription rows) :=
  inferInstanceAs (Decidable (∀ a ∈ rows, ∀ b ∈ rows, ∀ name ∈ a.declaredName? .typedef,
    ∀ other ∈ b.declaredName? .enum, keyOf name = keyOf other → a.description = b.description))

/-! ## Sayings that commute -/

/-- Either of two sayings may come first. -/
def Commute (s s' : Saying) : Prop := ∀ node?, (Saying.apply (Saying.apply node? s) s') =
  Saying.apply (Saying.apply node? s') s

theorem Commute.symm {s s' : Saying} (h : Commute s s') : Commute s' s :=
  fun node? => (h node?).symm

/-- A parameter gives its node what no mention, type or enumeration does. -/
theorem commute_param {name : String} {row : Row} {type : TypeExpr} {s : Saying}
    (hs : s.isParam = false) : Commute (.param name row type) s := by
  intro node?
  cases s with
  | param other declaring expr => cases hs
  | mention other => cases node? <;> rfl
  | typedef other doc => cases node? <;> rfl
  | enum other doc decl => cases node? <;> rfl

theorem commute_mention {name : String} {s : Saying} (hname : s.name = name) :
    Commute (.mention name) s := by
  subst hname
  intro node?
  cases node? <;> rfl

theorem commute_typedef_enum {name doc : String} {decl : EnumDecl} :
    Commute (.typedef name doc) (.enum name doc decl) := by
  intro node?
  cases node? <;> rfl

/-- Rows of which no two have marks with one key are told apart by such a mark. -/
theorem eq_of_pairwise {β γ : Type} {mark : Row → Option β} (key : β → γ)
    (h : rows.Pairwise fun a b => ∀ x ∈ mark a, ∀ y ∈ mark b, key x ≠ key y) {a b : Row}
    (ha : a ∈ rows) (hb : b ∈ rows) {x y : β} (hx : mark a = some x) (hy : mark b = some y)
    (hkey : key x = key y) : a = b := by
  by_contra hne
  have hsymm : Std.Symm fun a b : Row => ∀ x ∈ mark a, ∀ y ∈ mark b, key x ≠ key y :=
    ⟨fun _ _ hab x hx y hy => (hab y hy x hx).symm⟩
  exact h.forall ha hb hne x hx y hy hkey

namespace Unrepeated

/-- Something is declared under a key by one row at most. -/
theorem row_eq (h : Unrepeated rows) {kind : Kind} (hkind : kind ∈ [Kind.param, .typedef, .enum])
    {a b : Row} (ha : a ∈ rows) (hb : b ∈ rows) {name other : String}
    (hname : a.declaredName? kind = some name) (hother : b.declaredName? kind = some other)
    (hkey : keyOf name = keyOf other) : a = b :=
  eq_of_pairwise keyOf (h.names kind hkind) ha hb hname hother hkey

theorem fieldRow_eq (h : Unrepeated rows) (hg : build rows = .ok g) {a b : Row} (ha : a ∈ rows)
    (hb : b ∈ rows) {slot : Slot} (hslot : a.slot? g.ownerOf = some slot)
    (hslot' : b.slot? g.ownerOf = some slot) : a = b :=
  eq_of_pairwise id (h.fields g hg) ha hb hslot hslot' rfl

end Unrepeated

/-! ## Where sayings come from -/

theorem mem_sayings {owner : String → String} {s : Saying} :
    s ∈ sayings owner rows ↔ ∃ row ∈ rows, s ∈ row.declares ∨ s ∈ row.places owner := by
  simp only [sayings, List.mem_append, List.mem_flatMap]
  constructor
  · rintro (⟨row, hrow, hs⟩ | ⟨row, hrow, hs⟩)
    · exact ⟨row, hrow, Or.inl hs⟩
    · exact ⟨row, hrow, Or.inr hs⟩
  · rintro ⟨row, hrow, hs | hs⟩
    · exact Or.inl ⟨row, hrow, hs⟩
    · exact Or.inr ⟨row, hrow, hs⟩

/-- The name of the type of a parameter or field is mentioned. -/
theorem base_mem_mentionedNames {row : Row} {type : TypeExpr} (hrow : row ∈ rows)
    (hkind : (row.declaredName? .param).isSome = true ∨ row.fieldPath?.isSome = true)
    (htype : row.type? = some type) (hbase : Builtin.isName type.base = false) :
    type.base ∈ rows.flatMap Row.mentionedNames := by
  refine List.mem_flatMap.mpr ⟨row, hrow, Row.mem_mentionedNames.mpr ?_⟩
  exact Or.inr (Or.inr (Or.inr ⟨hkind, type, htype, hbase, rfl⟩))

/-- What a saying comes from. -/
theorem saying_cases {owner : String → String} {s : Saying} (hs : s ∈ sayings owner rows) :
    (∃ row ∈ rows, ∃ name type, row.declaredName? .param = some name ∧ row.type? = some type ∧
      s = .param name row type) ∨
    (∃ row ∈ rows, ∃ name, row.declaredName? .typedef = some name ∧
      s = .typedef name row.description) ∨
    (∃ row ∈ rows, ∃ name, row.declaredName? .enum = some name ∧
      s = .enum name row.description ⟨row.typeBlock, row.choices⟩) ∨
    s = .mention s.name ∧ (s.name ∈ rows.flatMap Row.mentionedNames ∨
      ∃ row ∈ rows, ∃ path, row.fieldPath? = some path ∧ s.name = owner path.1) := by
  have hmentions : ∀ row ∈ rows, ∀ type, row.type? = some type →
      (row.declaredName? .param).isSome = true ∨ row.fieldPath?.isSome = true →
        s ∈ type.mentions → s = .mention s.name ∧ s.name ∈ rows.flatMap Row.mentionedNames := by
    intro row hrow type htype hkind hs
    obtain ⟨hbase, rfl⟩ := TypeExpr.mem_mentions.mp hs
    exact ⟨rfl, base_mem_mentionedNames hrow hkind htype hbase⟩
  obtain ⟨row, hrow, hdeclares | hplaces⟩ := mem_sayings.mp hs
  · rcases Row.mem_declares_iff.mp hdeclares with
      ⟨name, type, hname, htype, rfl | hmention⟩ | ⟨name, hname, rfl⟩ | ⟨name, hname, rfl⟩
    · exact Or.inl ⟨row, hrow, name, type, hname, htype, rfl⟩
    · obtain ⟨hsame, hmem⟩ := hmentions row hrow type htype (Or.inl (by rw [hname]; rfl)) hmention
      exact Or.inr (Or.inr (Or.inr ⟨hsame, Or.inl hmem⟩))
    · exact Or.inr (Or.inl ⟨row, hrow, name, hname, rfl⟩)
    · exact Or.inr (Or.inr (Or.inl ⟨row, hrow, name, hname, rfl⟩))
  · obtain ⟨path, type, hpath, htype, rfl | hmention⟩ := Row.mem_places_iff.mp hplaces
    · exact Or.inr (Or.inr (Or.inr ⟨rfl, Or.inr ⟨row, hrow, path, hpath, rfl⟩⟩))
    · obtain ⟨hsame, hmem⟩ := hmentions row hrow type htype (Or.inr (by rw [hpath]; rfl)) hmention
      exact Or.inr (Or.inr (Or.inr ⟨hsame, Or.inl hmem⟩))

variable {owner : String → String}

theorem row_of_param {name : String} {row : Row} {type : TypeExpr}
    (hs : .param name row type ∈ sayings owner rows) :
    row ∈ rows ∧ row.declaredName? .param = some name ∧ row.type? = some type := by
  rcases saying_cases hs with ⟨_, hrow, _, _, hname, htype, hsame⟩ | ⟨_, -, _, -, hsame⟩ |
    ⟨_, -, _, -, hsame⟩ | ⟨hsame, -⟩
  · cases hsame
    exact ⟨hrow, hname, htype⟩
  all_goals cases hsame

theorem row_of_typedef {name doc : String} (hs : .typedef name doc ∈ sayings owner rows) :
    ∃ row ∈ rows, row.declaredName? .typedef = some name ∧ row.description = doc := by
  rcases saying_cases hs with ⟨_, -, _, _, -, -, hsame⟩ | ⟨row, hrow, _, hname, hsame⟩ |
    ⟨_, -, _, -, hsame⟩ | ⟨hsame, -⟩
  · cases hsame
  · cases hsame
    exact ⟨row, hrow, hname, rfl⟩
  all_goals cases hsame

theorem row_of_enum {name doc : String} {decl : EnumDecl}
    (hs : .enum name doc decl ∈ sayings owner rows) :
    ∃ row ∈ rows, row.declaredName? .enum = some name ∧ row.description = doc ∧
      ⟨row.typeBlock, row.choices⟩ = decl := by
  rcases saying_cases hs with ⟨_, -, _, _, -, -, hsame⟩ | ⟨_, -, _, -, hsame⟩ |
    ⟨row, hrow, _, hname, hsame⟩ | ⟨hsame, -⟩
  · cases hsame
  · cases hsame
  · cases hsame
    exact ⟨row, hrow, hname, rfl, rfl⟩
  · cases hsame

/-- The names that the owners of fields have are mentioned. -/
def Mentioned (rows : List Row) (owner : String → String) : Prop :=
  ∀ row ∈ rows, ∀ path, row.fieldPath? = some path →
    owner path.1 ∈ rows.flatMap Row.mentionedNames

/-- The name in a saying is mentioned, unless it is a parameter's own. -/
theorem Mentioned.name_mem (howner : Mentioned rows owner) {s : Saying}
    (hs : s ∈ sayings owner rows) (hother : s.isParam = false) :
    s.name ∈ rows.flatMap Row.mentionedNames := by
  rcases saying_cases hs with ⟨_, -, _, _, -, -, rfl⟩ | ⟨row, hrow, _, hname, rfl⟩ |
    ⟨row, hrow, _, hname, rfl⟩ | ⟨-, hmem | ⟨row, hrow, path, hpath, hname⟩⟩
  · cases hother
  · exact List.mem_flatMap.mpr ⟨row, hrow, Row.mem_mentionedNames.mpr (Or.inl hname)⟩
  · exact List.mem_flatMap.mpr ⟨row, hrow, Row.mem_mentionedNames.mpr (Or.inr (Or.inl hname))⟩
  · exact hmem
  · rw [hname]
    exact howner row hrow path hpath

/-- Fields belong to their parents while nothing is known of these. -/
theorem mentioned_id (rows : List Row) : Mentioned rows id := by
  intro row hrow path hpath
  refine List.mem_flatMap.mpr ⟨row, hrow, Row.mem_mentionedNames.mpr ?_⟩
  exact Or.inr (Or.inr (Or.inl ⟨path.2, hpath⟩))

/-- The type of a member comes from a row. -/
theorem exists_row_of_node? (hg : build rows = .ok g) {key : String} {node : Node}
    {type : TypeExpr} (hnode : g.node? key = some node) (htype : node.member.type? = some type) :
    ∃ row ∈ rows, (row.declaredName? .param).isSome = true ∧ row.type? = some type := by
  rw [node?_build hg] at hnode
  obtain ⟨name, row, hparam⟩ := Saying.exists_param_of_summary hnode htype
  obtain ⟨hrow, hname, hread⟩ := row_of_param (Saying.mem_about.mp hparam).1
  exact ⟨row, hrow, by rw [hname]; rfl, hread⟩

theorem exists_row_of_field? (hg : build rows = .ok g) {owner name : String} {field : Field}
    {type : TypeExpr} (hfield : g.field? owner name = some field)
    (htype : field.member.type? = some type) :
    ∃ row ∈ rows, row.fieldPath?.isSome = true ∧ row.type? = some type := by
  rw [field?_build hg] at hfield
  obtain ⟨row, hmem, hread⟩ := Row.exists_row_of_foldl_fill hfield htype
  obtain ⟨hrow, hslot⟩ := List.mem_filter.mp hmem
  exact ⟨row, hrow, Row.isSome_fieldPath?_of_slot? (of_decide_eq_true hslot), hread⟩

theorem exists_row_of_mem_members (hg : build rows = .ok g) {m : Member} (hm : m ∈ g.members)
    {type : TypeExpr} (htype : m.type? = some type) :
    ∃ row ∈ rows, ((row.declaredName? .param).isSome = true ∨ row.fieldPath?.isSome = true) ∧
      row.type? = some type := by
  rcases List.mem_append.mp hm with hnode | hfield
  · obtain ⟨⟨key, node⟩, hmem, rfl⟩ := List.mem_map.mp hnode
    obtain ⟨row, hrow, hkind, hread⟩ :=
      exists_row_of_node? hg ((WellFormed.build hg).node?_of_mem hmem) htype
    exact ⟨row, hrow, Or.inl hkind, hread⟩
  · obtain ⟨field, hmem, rfl⟩ := List.mem_map.mp hfield
    obtain ⟨row, hrow, hkind, hread⟩ :=
      exists_row_of_field? hg ((WellFormed.build hg).field?_of_mem hmem) htype
    exact ⟨row, hrow, Or.inr hkind, hread⟩

theorem mentioned_ownerOf (hg : build rows = .ok g) : Mentioned rows g.ownerOf := by
  intro row hrow path hpath
  have hparent := mentioned_id rows row hrow path hpath
  unfold ownerOf fieldParent
  split
  · exact hparent
  · cases halias : g.alias? (keyOf path.1) with
    | none => exact hparent
    | some base =>
        obtain ⟨node, type, hnode, -, htype, hbase, -, rfl⟩ := alias?_eq_some_iff.mp halias
        obtain ⟨declaring, hdeclaring, hkind, hread⟩ := exists_row_of_node? hg hnode htype
        exact base_mem_mentionedNames hdeclaring (Or.inl hkind) hread hbase

/-! ## Sayings in any order -/

/-- What a declared type and an enumeration of one name say commutes if they agree on the
description. -/
theorem OneDescription.commute (hdocs : OneDescription rows) {name doc doc' : String}
    {decl : EnumDecl} (hs : .typedef name doc ∈ sayings owner rows)
    (hs' : .enum name doc' decl ∈ sayings owner rows) :
    Commute (.typedef name doc) (.enum name doc' decl) := by
  obtain ⟨row, hrow, hname, rfl⟩ := row_of_typedef hs
  obtain ⟨row', hrow', hname', rfl, -⟩ := row_of_enum hs'
  rw [hdocs row hrow row' hrow' name hname name hname' rfl]
  exact commute_typedef_enum

/-- Sayings about one name commute. -/
theorem Unrepeated.commute (h : Unrepeated rows) (hdocs : OneDescription rows)
    (howner : Mentioned rows owner) {s s' : Saying}
    (hs : s ∈ sayings owner rows) (hs' : s' ∈ sayings owner rows) (hkey : s.key = s'.key) :
    Commute s s' := by
  have hnames : s.isParam = false → s'.isParam = false → s'.name = s.name := fun hother hother' =>
    h.spelled _ (howner.name_mem hs' hother') _ (howner.name_mem hs hother) hkey.symm
  -- Two of one kind come from the same row; two of different kinds change different things, but
  -- for the description that a type and an enumeration both give.
  cases s with
  | param name row type =>
      cases s' with
      | param name' row' type' =>
          obtain ⟨hrow, hname, htype⟩ := row_of_param hs
          obtain ⟨hrow', hname', htype'⟩ := row_of_param hs'
          obtain rfl := h.row_eq (by simp) hrow hrow' hname hname' hkey
          cases hname.symm.trans hname'
          cases htype.symm.trans htype'
          exact fun _ => rfl
      | mention name' => exact commute_param rfl
      | typedef name' doc' => exact commute_param rfl
      | enum name' doc' decl' => exact commute_param rfl
  | mention name =>
      cases s' with
      | param name' row' type' => exact (commute_param rfl).symm
      | mention name' => exact commute_mention (hnames rfl rfl)
      | typedef name' doc' => exact commute_mention (hnames rfl rfl)
      | enum name' doc' decl' => exact commute_mention (hnames rfl rfl)
  | typedef name doc =>
      cases s' with
      | param name' row' type' => exact (commute_param rfl).symm
      | mention name' => exact (commute_mention (hnames rfl rfl).symm).symm
      | typedef name' doc' =>
          obtain ⟨row, hrow, hname, rfl⟩ := row_of_typedef hs
          obtain ⟨row', hrow', hname', rfl⟩ := row_of_typedef hs'
          obtain rfl := h.row_eq (by simp) hrow hrow' hname hname' hkey
          cases hname.symm.trans hname'
          exact fun _ => rfl
      | enum name' doc' decl' =>
          obtain rfl : name' = name := hnames rfl rfl
          exact hdocs.commute hs hs'
  | enum name doc decl =>
      cases s' with
      | param name' row' type' => exact (commute_param rfl).symm
      | mention name' => exact (commute_mention (hnames rfl rfl).symm).symm
      | typedef name' doc' =>
          obtain rfl : name' = name := hnames rfl rfl
          exact (hdocs.commute hs' hs).symm
      | enum name' doc' decl' =>
          obtain ⟨row, hrow, hname, rfl, rfl⟩ := row_of_enum hs
          obtain ⟨row', hrow', hname', rfl, rfl⟩ := row_of_enum hs'
          obtain rfl := h.row_eq (by simp) hrow hrow' hname hname' hkey
          cases hname.symm.trans hname'
          exact fun _ => rfl

/-- Sayings amount to the same in any order. -/
theorem Unrepeated.summary_eq (h : Unrepeated rows) (hdocs : OneDescription rows)
    (howner : Mentioned rows owner) {said said' : List Saying} (hsaid : said ⊆ sayings owner rows)
    (hperm : said.Perm said') (key : String) :
    Saying.summary (Saying.about key said) = Saying.summary (Saying.about key said') := by
  refine (hperm.filter _).foldl_eq' ?_ none
  intro s hs s' hs' node?
  obtain ⟨hs, hkey⟩ := Saying.mem_about.mp hs
  obtain ⟨hs', hkey'⟩ := Saying.mem_about.mp hs'
  exact h.commute hdocs howner (hsaid hs) (hsaid hs') (hkey.trans hkey'.symm) node?

/-! ## Graphs of rows in any order -/

theorem fieldParent_congr (h : ∀ key, g.node? key = g'.node? key) :
    fieldParent g g = fieldParent g' g' := by
  funext parent
  unfold fieldParent alias?
  rw [isDeclared_eq, isDeclared_eq, h]

variable (h : Unrepeated rows) (hdocs : OneDescription rows) (hperm : rows.Perm rows')

include hperm

/-- Whether rows build a graph does not depend on their order. -/
theorem exists_build_perm : (∃ g, build rows = .ok g) ↔ ∃ g', build rows' = .ok g' := by
  simp only [exists_build_iff, hperm.mem_iff]

include h hdocs

theorem Unrepeated.ownerOf_eq (hg : build rows = .ok g) (hg' : build rows' = .ok g') :
    g.ownerOf = g'.ownerOf := by
  obtain ⟨declared, -, -, hdeclared, -, -, howner⟩ := exists_passes_of_build hg
  obtain ⟨declared', -, -, hdeclared', -, -, howner'⟩ := exists_passes_of_build hg'
  rw [← howner, ← howner']
  refine fieldParent_congr fun key => ?_
  rw [node?_foldlM_declare hdeclared, node?_foldlM_declare hdeclared']
  exact h.summary_eq hdocs (mentioned_id rows) (List.subset_append_left _ _)
    (hperm.flatMap_right _) key

/-- The graphs of rows in two orders are equivalent. -/
theorem Unrepeated.equivalent (hg : build rows = .ok g) (hg' : build rows' = .ok g') :
    g.Equivalent g' := by
  have howner : g.ownerOf = g'.ownerOf := h.ownerOf_eq hdocs hperm hg hg'
  refine ⟨.build hg, .build hg', ?_, ?_⟩
  · intro key
    rw [node?_build hg, node?_build hg', ← howner]
    exact h.summary_eq hdocs (mentioned_ownerOf hg) (List.Subset.refl _)
      ((hperm.flatMap_right _).append (hperm.flatMap_right _)) key
  · intro owner name
    rw [field?_build hg, field?_build hg', ← howner]
    refine (hperm.filter _).foldl_eq' ?_ none
    intro a ha b hb field?
    obtain ⟨ha, hslot⟩ := List.mem_filter.mp ha
    obtain ⟨hb, hslot'⟩ := List.mem_filter.mp hb
    rw [h.fieldRow_eq hg ha hb (of_decide_eq_true hslot) (of_decide_eq_true hslot')]

omit hdocs hperm

/-- The types of members have names that are mentioned in rows. -/
theorem Unrepeated.spelled_build (hg : build rows = .ok g) : g.Spelled := by
  have hmentioned : ∀ type ∈ g.memberTypes, Builtin.isName type.base = false →
      type.base ∈ rows.flatMap Row.mentionedNames := by
    intro type hmem hbase
    obtain ⟨m, hm, htype⟩ := List.mem_filterMap.mp hmem
    obtain ⟨row, hrow, hkind, hread⟩ := exists_row_of_mem_members hg hm htype
    exact base_mem_mentionedNames hrow hkind hread hbase
  intro type hmem type' hmem' hbase hbase' hkey
  exact h.spelled _ (hmentioned type hmem hbase) _ (hmentioned type' hmem' hbase') hkey

end TypeGraph

end AnnotatedValues
