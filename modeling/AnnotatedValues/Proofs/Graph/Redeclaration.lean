import AnnotatedValues.Proofs.Graph.Rows

/-!
# Repeated declarations

What several rows say about one name or field is settled by the last of them
that says it, one kind of row leaves what the others have said, and no row takes
away what is there.  Parameters are listed in the order of their first rows.
-/

namespace AnnotatedValues

open Annotation Fallible

/-! ## Members -/

/-- A member is as the last of its rows gives it, and has the default of the last one that has a
default. -/
structure Member.LastWritten (rows : List Row) (m : Member) : Prop where
  last : ∃ row type, rows.getLast? = some row ∧ row.type? = some type ∧ m.block = row.typeBlock ∧
    m.type? = some type ∧ m.choices = row.choices ∧ m.comment = row.description ∧
      m.optional = row.optional
  default : m.default? = (rows.filter fun row => !row.default.isEmpty).getLast?.map fun row =>
    ⟨row.default, .annotated⟩

/-- What rows with their types amount to. -/
def Member.ofTyped (typed : List (Row × TypeExpr)) : Member :=
  typed.foldl (fun m entry => TypeGraph.rowMember entry.1 entry.2 m) .blank

namespace Annotation.Row

/-- The row with its type. -/
def typed? (row : Row) : Option (Row × TypeExpr) := row.type?.map fun type => (row, type)

theorem typed?_eq_some {row : Row} {type : TypeExpr} (h : row.type? = some type) :
    row.typed? = some (row, type) := by rw [typed?, h]; rfl

/-- What rows amount to. -/
def memberOf (rows : List Row) : AnnotatedValues.Member := .ofTyped (rows.filterMap typed?)

theorem memberOf_concat {rows : List Row} {row : Row} {type : TypeExpr} (h : row.type? = some type) :
    memberOf (rows ++ [row]) = TypeGraph.rowMember row type (memberOf rows) := by
  rw [memberOf, List.filterMap_append, List.filterMap_cons_some (typed?_eq_some h),
    AnnotatedValues.Member.ofTyped, List.foldl_append]
  rfl

theorem default?_memberOf {rows : List Row} (htyped : ∀ row ∈ rows, row.type?.isSome = true) :
    (memberOf rows).default? = (rows.filter fun row => !row.default.isEmpty).getLast?.map fun row =>
      ⟨row.default, .annotated⟩ := by
  induction rows using List.reverseRecOn with
  | nil => rfl
  | append_singleton rows row ih =>
      rw [List.forall_mem_append] at htyped
      obtain ⟨type, htype⟩ := Option.isSome_iff_exists.mp (htyped.2 row List.mem_cons_self)
      rw [memberOf_concat htype, List.filter_append, TypeGraph.rowMember, ih htyped.1]
      cases hdefault : row.default.isEmpty with
      | true => simp [hdefault]
      | false => simp [hdefault]

/-- Rows with types leave a member as the last of them gives it. -/
theorem lastWritten_memberOf {rows : List Row} (hne : rows ≠ [])
    (htyped : ∀ row ∈ rows, row.type?.isSome = true) : (memberOf rows).LastWritten rows where
  last := by
    rcases List.eq_nil_or_concat rows with rfl | ⟨front, row, rfl⟩
    · exact absurd rfl hne
    · rw [List.concat_eq_append] at htyped ⊢
      obtain ⟨type, htype⟩ := Option.isSome_iff_exists.mp (htyped row (by simp))
      rw [memberOf_concat htype]
      exact ⟨row, type, List.getLast?_concat, htype, rfl, rfl, rfl, rfl, rfl⟩
  default := default?_memberOf htyped

/-- The field at a slot is what the rows for it amount to. -/
theorem member_foldl_fill (rows : List Row) (owner name : String) :
    ((rows.foldl (fill owner name) none).map (·.member)).getD .blank = memberOf rows := by
  induction rows using List.reverseRecOn with
  | nil => rfl
  | append_singleton rows row ih =>
      rw [List.foldl_append, List.foldl_cons, List.foldl_nil, fill]
      cases htype : row.type? with
      | some type =>
          rw [memberOf_concat htype, ← ih]
          rfl
      | none =>
          have hnone : [row].filterMap typed? = [] :=
            List.filterMap_cons_none (by rw [typed?, htype]; rfl)
          rw [memberOf, List.filterMap_append, hnone, List.append_nil]
          exact ih

end Annotation.Row

/-! ## Nodes -/

namespace Saying

def paramName? : Saying → Option String
  | .param name _ _ => some name
  | _ => none

/-- The row of a parameter with its type. -/
def param? : Saying → Option (Row × TypeExpr)
  | .param _ row type => some (row, type)
  | _ => none

def doc? : Saying → Option String
  | .typedef _ doc | .enum _ doc _ => some doc
  | _ => none

def decl? : Saying → Option EnumDecl
  | .enum _ _ decl => some decl
  | _ => none

def typedef? : Saying → Option Bool
  | .typedef _ _ => some true
  | _ => none

/-- A node has the spelling of the last parameter, and is one if there is a last. -/
theorem spelling_summary (sayings : List Saying) :
    ((summary sayings).bind fun node => if node.isParam then some node.name else none) =
      (sayings.filterMap paramName?).getLast? := by
  induction sayings using List.reverseRecOn with
  | nil => rfl
  | append_singleton sayings s ih =>
      rw [summary_append, List.filterMap_append]
      cases s with
      | param name row type => simp [paramName?, apply, update]
      | mention name =>
          rw [List.filterMap_cons_none rfl, List.filterMap_nil, List.append_nil, ← ih]
          cases summary sayings <;> rfl
      | typedef name doc =>
          rw [List.filterMap_cons_none rfl, List.filterMap_nil, List.append_nil, ← ih]
          cases summary sayings <;> rfl
      | enum name doc decl =>
          rw [List.filterMap_cons_none rfl, List.filterMap_nil, List.append_nil, ← ih]
          cases summary sayings <;> rfl

/-- What is read off a node and each saying changes in its own way, all change in turn. -/
theorem view_summary {α : Type} (view : Node → α) (change : α → Saying → α) {start : α}
    (hstart : ∀ name, view (.named name) = start)
    (hupdate : ∀ s node, view (s.update node) = change (view node) s) (sayings : List Saying) :
    ((summary sayings).map view).getD start = sayings.foldl change start := by
  induction sayings using List.reverseRecOn with
  | nil => rfl
  | append_singleton sayings s ih =>
      rw [summary_append, List.foldl_append, List.foldl_cons, List.foldl_nil, List.foldl_cons,
        List.foldl_nil, ← ih, apply, Option.map_some, Option.getD_some, hupdate]
      cases summary sayings with
      | none => exact congrArg (change · s) (hstart s.name)
      | some node => rfl

/-- What is set again and again is what it was set to last. -/
theorem foldl_getD_eq_getLast? {α β : Type} (f : α → Option β) (start : β) (as : List α) :
    as.foldl (fun b a => (f a).getD b) start = ((as.filterMap f).getLast?).getD start := by
  induction as using List.reverseRecOn with
  | nil => rfl
  | append_singleton as a ih =>
      rw [List.foldl_append, List.filterMap_append, List.foldl_cons, List.foldl_nil, ih]
      cases hfa : f a with
      | none => rw [List.filterMap_cons_none hfa, List.filterMap_nil, List.append_nil]; rfl
      | some b => rw [List.filterMap_cons_some hfa, List.filterMap_nil, List.getLast?_concat]; rfl

/-- The parameter of a node is what its rows amount to. -/
theorem member_summary (sayings : List Saying) :
    ((summary sayings).map (·.member)).getD .blank = .ofTyped (sayings.filterMap param?) := by
  rw [Member.ofTyped, List.foldl_filterMap]
  refine view_summary (·.member) _ (fun _ => rfl) (fun s node => ?_) sayings
  cases s <;> rfl

theorem doc_summary (sayings : List Saying) :
    ((summary sayings).map (·.doc)).getD "" = ((sayings.filterMap doc?).getLast?).getD "" := by
  rw [← foldl_getD_eq_getLast?]
  refine view_summary (·.doc) _ (fun _ => rfl) (fun s node => ?_) sayings
  cases s <;> rfl

theorem enum_summary (sayings : List Saying) :
    ((summary sayings).map (·.enum?)).getD none = (sayings.filterMap decl?).getLast? := by
  have hlast : (sayings.filterMap decl?).getLast? =
      ((sayings.filterMap fun s => s.decl?.map some).getLast?).getD none := by
    rw [← List.map_filterMap, List.getLast?_map]
    cases (sayings.filterMap decl?).getLast? <;> rfl
  rw [hlast, ← foldl_getD_eq_getLast?]
  refine view_summary (·.enum?) _ (fun _ => rfl) (fun s node => ?_) sayings
  cases s <;> rfl

theorem isTypedef_summary (sayings : List Saying) :
    ((summary sayings).map (·.isTypedef)).getD false =
      ((sayings.filterMap typedef?).getLast?).getD false := by
  rw [← foldl_getD_eq_getLast?]
  refine view_summary (·.isTypedef) _ (fun _ => rfl) (fun s node => ?_) sayings
  cases s <;> rfl

end Saying

/-! ## Rows for a name -/

namespace Annotation

/-- Rows of the kind describe a type. -/
def Kind.isType : Kind → Bool
  | .typedef | .enum => true
  | .param | .field => false

namespace Row

/-- The first name in the row has the key. -/
def isNamed (key : String) (row : Row) : Bool := row.path.head?.any fun name => keyOf name == key

/-- The row is of one of some kinds and is for the name with a key. -/
def isFor (kinds : Kind → Bool) (key : String) (row : Row) : Bool :=
  kinds row.kind && row.isNamed key

/-- What a row declares, the mentions of names apart. -/
def declaration? (row : Row) : Option Saying :=
  match row.kind, row.path with
  | .param, name :: _ => row.type?.map (.param name row)
  | .typedef, name :: _ => some (.typedef name row.description)
  | .enum, name :: _ => some (.enum name row.description ⟨row.typeBlock, row.choices⟩)
  | _, _ => none

theorem mem_declares_of_declaration? {row : Row} {s : Saying} (h : row.declaration? = some s) :
    s ∈ row.declares := by
  unfold declaration? at h
  split at h
  · rename_i hkind hpath
    obtain ⟨type, htype, rfl⟩ := Option.map_eq_some_iff.mp h
    rw [declares, hkind, hpath, htype]
    exact List.mem_cons_self
  · rename_i hkind hpath
    cases h
    rw [declares, hkind, hpath]
    exact List.mem_cons_self
  · rename_i hkind hpath
    cases h
    rw [declares, hkind, hpath]
    exact List.mem_cons_self
  · cases h

theorem filterMap_declares {α : Type} {f : Saying → Option α} (hf : ∀ name, f (.mention name) = none)
    (row : Row) : row.declares.filterMap f = (row.declaration?.bind f).toList := by
  unfold declares declaration?
  cases hpath : row.path with
  | nil => cases row.kind <;> rfl
  | cons name rest =>
      cases row.kind with
      | field => rfl
      | typedef => rw [List.filterMap_cons]; cases hs : f (.typedef name row.description) <;> simp [hs]
      | enum =>
          rw [List.filterMap_cons]
          cases hs : f (.enum name row.description ⟨row.typeBlock, row.choices⟩) <;> simp [hs]
      | param =>
          cases row.type? with
          | none => rfl
          | some type =>
              have hmentions : type.mentions.filterMap f = [] := by
                refine List.filterMap_eq_nil_iff.mpr fun s hs => ?_
                obtain ⟨-, rfl⟩ := TypeExpr.mem_mentions.mp hs
                exact hf type.base
              dsimp only
              rw [List.filterMap_cons, hmentions]
              cases hs : f (.param name row type) <;> simp [hs]

theorem isNamed_of_declaration? {row : Row} {s : Saying} (h : row.declaration? = some s)
    (key : String) : row.isNamed key = (s.key == key) := by
  unfold declaration? at h
  unfold isNamed
  split at h
  · rename_i hpath
    obtain ⟨type, -, rfl⟩ := Option.map_eq_some_iff.mp h
    rw [hpath]
    rfl
  · rename_i hpath
    cases h
    rw [hpath]
    rfl
  · rename_i hpath
    cases h
    rw [hpath]
    rfl
  · cases h

/-- What a row declares is about the name in the row. -/
theorem bind_declaration?_of_key {α : Type} (f : Saying → Option α) (key : String) (row : Row) :
    (row.declaration?.bind fun s => if s.key == key then f s else none) =
      if row.isNamed key then row.declaration?.bind f else none := by
  cases h : row.declaration? with
  | none => exact (ite_self _).symm
  | some s => rw [isNamed_of_declaration? h]; rfl

theorem exists_path_of_isNamed {row : Row} {key : String} (h : row.isNamed key = true) :
    ∃ name rest, row.path = name :: rest := by
  unfold isNamed at h
  cases hpath : row.path with
  | nil => rw [hpath] at h; cases h
  | cons name rest => exact ⟨name, rest, rfl⟩

end Row

end Annotation

namespace TypeGraph

variable {g g' : TypeGraph} {rows : List Row} {row : Row}

theorem filterMap_sayings {α : Type} {f : Saying → Option α} (hf : ∀ name, f (.mention name) = none)
    (owner : String → String) (rows : List Row) :
    (sayings owner rows).filterMap f = rows.filterMap fun row => row.declaration?.bind f := by
  have hplaces : (rows.flatMap (Row.places owner)).filterMap f = [] := by
    refine List.filterMap_eq_nil_iff.mpr fun s hs => ?_
    obtain ⟨row, -, hrow⟩ := List.mem_flatMap.mp hs
    rw [Row.eq_mention_of_mem_places hrow]
    exact hf s.name
  rw [sayings, List.filterMap_append, hplaces, List.append_nil, List.filterMap_flatMap,
    List.filterMap_eq_flatMap_toList]
  exact List.flatMap_congr fun row _ => Row.filterMap_declares hf row

/-- The names of parameters in what rows say are those of the rows. -/
theorem filterMap_paramName?_sayings (hg : build rows = .ok g) :
    (sayings g.ownerOf rows).filterMap Saying.paramName? =
      rows.filterMap (Row.declaredName? .param) := by
  rw [filterMap_sayings fun _ => rfl]
  refine List.filterMap_congr fun row hrow => ?_
  have htyped := exists_build_iff.mp ⟨g, hg⟩ row hrow
  unfold Row.declaration? Row.declaredName?
  cases hpath : row.path with
  | nil => cases row.kind <;> rfl
  | cons name rest =>
      cases hkind : row.kind with
      | field => rfl
      | typedef => rfl
      | enum => rfl
      | param =>
          obtain ⟨type, htype⟩ := Option.isSome_iff_exists.mp
            (htyped (Or.inl ⟨hkind, hpath ▸ List.cons_ne_nil _ _⟩))
          rw [htype]
          rfl

/-- What is said of a name in one of its aspects is said by the rows of the kinds that have it. -/
theorem filterMap_about_sayings {α : Type} {f : Saying → Option α}
    (hf : ∀ name, f (.mention name) = none) {kinds : Kind → Bool} {value : Row → Option α}
    (hrow : ∀ row name rest, row.path = name :: rest →
      row.declaration?.bind f = if kinds row.kind then value row else none)
    (key : String) (owner : String → String) (rows : List Row) :
    (Saying.about key (sayings owner rows)).filterMap f =
      (rows.filter (Row.isFor kinds key)).filterMap value := by
  have hmention : ∀ name, (fun s : Saying => if s.key == key then f s else none) (.mention name) =
      none := fun name => by simp [hf]
  rw [Saying.about, List.filterMap_filter, filterMap_sayings hmention, List.filterMap_filter]
  refine List.filterMap_congr fun row _ => ?_
  rw [Row.bind_declaration?_of_key, Row.isFor]
  cases hnamed : row.isNamed key with
  | false => simp
  | true =>
      obtain ⟨name, rest, hpath⟩ := Row.exists_path_of_isNamed hnamed
      rw [if_pos rfl, hrow row name rest hpath, Bool.and_true]

section

variable (key : String) (owner : String → String) (rows : List Row)

theorem filterMap_param?_about :
    (Saying.about key (sayings owner rows)).filterMap Saying.param? =
      (rows.filter (Row.isFor (· == .param) key)).filterMap Row.typed? := by
  refine filterMap_about_sayings (fun _ => rfl) (fun row name rest hpath => ?_) key owner rows
  unfold Row.declaration? Row.typed?
  rw [hpath]
  cases row.kind with
  | param => cases row.type? <;> rfl
  | typedef | enum | field => rfl

/-- What declared types and enumerations say of a name, or only those of one of the two kinds. -/
theorem filterMap_about_types {α : Type} {f : Saying → Option α} {kinds : Kind → Bool}
    {value : Row → α} (hmention : ∀ name, f (.mention name) = none)
    (hparam : ∀ name row type, f (.param name row type) = none)
    (htypedef : ∀ name row, f (.typedef name (Row.description row)) =
      if kinds .typedef then some (value row) else none)
    (henum : ∀ name row, f (.enum name (Row.description row) ⟨row.typeBlock, row.choices⟩) =
      if kinds .enum then some (value row) else none)
    (hkinds : kinds .param = false ∧ kinds .field = false) :
    (Saying.about key (sayings owner rows)).filterMap f =
      (rows.filter (Row.isFor kinds key)).map value := by
  rw [← List.filterMap_eq_map]
  refine filterMap_about_sayings hmention (fun row name rest hpath => ?_) key owner rows
  unfold Row.declaration?
  rw [hpath]
  cases row.kind with
  | param =>
      rw [hkinds.1]
      cases row.type? with
      | none => rfl
      | some type => exact hparam name row type
  | typedef => exact htypedef name row
  | enum => exact henum name row
  | field => rw [hkinds.2]; rfl

theorem filterMap_doc?_about :
    (Saying.about key (sayings owner rows)).filterMap Saying.doc? =
      (rows.filter (Row.isFor Kind.isType key)).map (·.description) :=
  filterMap_about_types key owner rows (fun _ => rfl) (fun _ _ _ => rfl) (fun _ _ => rfl)
    (fun _ _ => rfl) ⟨rfl, rfl⟩

theorem filterMap_decl?_about :
    (Saying.about key (sayings owner rows)).filterMap Saying.decl? =
      (rows.filter (Row.isFor (· == .enum) key)).map fun row => ⟨row.typeBlock, row.choices⟩ :=
  filterMap_about_types key owner rows (fun _ => rfl) (fun _ _ _ => rfl) (fun _ _ => rfl)
    (fun _ _ => rfl) ⟨rfl, rfl⟩

theorem filterMap_typedef?_about :
    (Saying.about key (sayings owner rows)).filterMap Saying.typedef? =
      (rows.filter (Row.isFor (· == .typedef) key)).map fun _ => true :=
  filterMap_about_types key owner rows (fun _ => rfl) (fun _ _ _ => rfl) (fun _ _ => rfl)
    (fun _ _ => rfl) ⟨rfl, rfl⟩

end

/-! ## Parameters in the order of their first rows -/

/-- The key of the parameter that a row declares. -/
def paramKey? (row : Row) : Option String := (row.declaredName? .param).map keyOf

theorem params_declare (h : declare g row = .ok g') :
    g'.params = (paramKey? row).elim g.params (adding g.params) := by
  unfold paramKey? Row.declaredName?
  cases declare_eq_ok_iff.mp h with
  | nothing hnone =>
      rcases hnone with hkind | hpath
      · rw [hkind]
        rfl
      · rw [hpath]
        cases row.kind <;> rfl
  | param hkind hpath htype =>
      rw [hkind, hpath, withParam, withMember, params_mention, params_updateMember,
        params_ensureUntyped]
      rfl
  | typedef hkind hpath =>
      rw [hkind, withTypedef, params_updateNode, params_ensureNode]
      rfl
  | enum hkind hpath =>
      rw [hkind, withEnum, params_updateNode, params_ensureNode]
      rfl

variable {declared : TypeGraph} {state state' : TypeGraph × List Placement}

/-- Fields make no parameters. -/
theorem params_place (h : place declared state row = .ok state') :
    state'.1.params = state.1.params := by
  obtain ⟨g, placed⟩ := state
  cases place_eq_ok_iff.mp h with
  | nothing => rfl
  | field => simp [withField_eq, withMember]

/-- Adding what is not there yet leaves the first of equal members. -/
theorem foldl_adding (keys : List String) : keys.foldl adding [] = keys.eraseDups := by
  induction keys using List.reverseRecOn with
  | nil => rfl
  | append_singleton keys key ih =>
      rw [List.foldl_append, ih, List.eraseDups_append, List.foldl_cons, List.foldl_nil]
      by_cases hkey : key ∈ keys
      · have hmem : key ∈ keys.eraseDups := List.mem_eraseDups.mpr hkey
        simp [adding, List.removeAll, hkey, hmem]
      · have hmem : key ∉ keys.eraseDups := fun h => hkey (List.mem_eraseDups.mp h)
        simp [adding, List.removeAll, List.eraseDups_cons, hkey, hmem]

theorem params_build (hg : build rows = .ok g) :
    g.params = ((rows.filterMap (Row.declaredName? .param)).map keyOf).eraseDups := by
  obtain ⟨declared, g₂, placed, hdeclared, hplaced, rfl⟩ := build_eq_ok_iff.mp hg
  have hsecond : g₂.params = declared.params :=
    foldlM_induction (motive := fun s : TypeGraph × List Placement => s.1.params = declared.params)
      (fun hs hstep => (params_place hstep).trans hs) rfl hplaced
  have hfirst : declared.params =
      rows.foldl (fun keys row => (paramKey? row).elim keys (adding keys)) [] :=
    foldlM_view (fun g => g.params) _ (motive := fun _ => True)
      (fun _ hstep => ⟨trivial, params_declare hstep⟩) trivial hdeclared
  rw [List.map_filterMap, ← foldl_adding, List.foldl_filterMap]
  refine hsecond.trans (hfirst.trans (congrArg (fun f => rows.foldl f []) ?_))
  funext keys row
  cases hkey : paramKey? row with
  | none => rw [paramKey?] at hkey; rw [hkey]; rfl
  | some key => rw [paramKey?] at hkey; rw [hkey]; rfl

/-! ## Nothing is taken away -/

/-- All nodes and fields are still there. -/
structure Keeps (g g' : TypeGraph) : Prop where
  node : ∀ key, (g.node? key).isSome = true → (g'.node? key).isSome = true
  field : ∀ owner name, (g.field? owner name).isSome = true → (g'.field? owner name).isSome = true

theorem isSome_foldl_apply (sayings : List Saying) {node? : Option Node}
    (h : node?.isSome = true) : (sayings.foldl Saying.apply node?).isSome = true := by
  induction sayings generalizing node? with
  | nil => exact h
  | cons s sayings ih => exact ih rfl

theorem keeps_declare (h : declare g row = .ok g') : g.Keeps g' where
  node := by
    intro key hnode
    rw [node?_declare h]
    exact isSome_foldl_apply _ hnode
  field := by
    intro owner name hfield
    rw [field?, fields_declare h]
    exact hfield

theorem keeps_place (h : place declared state row = .ok state') : state.1.Keeps state'.1 where
  node := by
    intro key hnode
    rw [node?_place h]
    exact isSome_foldl_apply _ hnode
  field := by
    intro owner name hfield
    rw [field?_place h]
    split
    · unfold Row.fill
      split
      · rfl
      · exact hfield
    · exact hfield

/-! ## Built graphs -/

/-- The rows that declare the parameter with a key. -/
def paramRows (key : String) (rows : List Row) : List Row :=
  rows.filter (Row.isFor (· == .param) key)

/-- The rows for the field at a slot. -/
def slotRows (g : TypeGraph) (owner name : String) (rows : List Row) : List Row :=
  rows.filter fun row => row.slot? g.ownerOf = some (.field owner name)

/-- What rows leave of what they say about one name or field. -/
structure Redeclared (rows : List Row) (g : TypeGraph) : Prop where
  /-- Parameters are listed once, in the order of their first rows. -/
  params : g.params = ((rows.filterMap (Row.declaredName? .param)).map keyOf).eraseDups
  params_nodup : g.params.Nodup
  /-- A parameter has the spelling of its last row, and is as its rows give it. -/
  param : ∀ key ∈ g.params, ∃ node last, g.node? key = some node ∧ node.isParam = true ∧
    (paramRows key rows).getLast? = some last ∧ last.path.head? = some node.name ∧
      node.member.LastWritten (paramRows key rows)
  not_param : ∀ key ∉ g.params, ∀ node, g.node? key = some node →
    node.isParam = false ∧ node.member = .blank
  /-- Each name that is declared has a node. -/
  declared : ∀ row ∈ rows, ∀ key, row.isFor (· != .field) key = true → (g.node? key).isSome = true
  /-- Rows for types and enumerations say that a node is one, and what it is. -/
  type : ∀ key node, g.node? key = some node →
    node.isTypedef = !(rows.filter (Row.isFor (· == .typedef) key)).isEmpty ∧
      node.enum? = (rows.filter (Row.isFor (· == .enum) key)).getLast?.map (fun row =>
        ⟨row.typeBlock, row.choices⟩) ∧
      node.doc = ((rows.filter (Row.isFor Kind.isType key)).getLast?.map (·.description)).getD ""
  /-- A field is there if a row is for it, and is as its rows give it. -/
  field : ∀ owner name, (g.field? owner name).isSome = !(g.slotRows owner name rows).isEmpty ∧
    ∀ field, g.field? owner name = some field →
      field.member.LastWritten (g.slotRows owner name rows)

theorem field_redeclared (hg : build rows = .ok g) (owner name : String) :
    (g.field? owner name).isSome = !(g.slotRows owner name rows).isEmpty ∧
      ∀ field, g.field? owner name = some field →
        field.member.LastWritten (g.slotRows owner name rows) := by
  have hfield : g.field? owner name = (g.slotRows owner name rows).foldl (Row.fill owner name) none :=
    field?_build hg owner name
  have htyped : ∀ row ∈ g.slotRows owner name rows, row.type?.isSome = true := by
    intro row hrow
    obtain ⟨hin, hat⟩ := List.mem_filter.mp hrow
    exact exists_build_iff.mp ⟨g, hg⟩ row hin
      (Or.inr (Row.isSome_fieldPath?_of_slot? (of_decide_eq_true hat)))
  by_cases hne : g.slotRows owner name rows = []
  · rw [hfield, hne]
    exact ⟨rfl, fun _ h => by cases h⟩
  · constructor
    · rw [hfield, Row.isSome_foldl_fill hne htyped]
      simp [hne]
    · intro field hsome
      have hmember := Row.member_foldl_fill (g.slotRows owner name rows) owner name
      rw [← hfield, hsome] at hmember
      have hwritten := Row.lastWritten_memberOf hne htyped
      rwa [← hmember] at hwritten

theorem mem_paramRows {key : String} :
    row ∈ paramRows key rows ↔ row ∈ rows ∧ paramKey? row = some key := by
  unfold paramRows paramKey? Row.declaredName? Row.isFor Row.isNamed
  rw [List.mem_filter, Bool.and_eq_true, beq_iff_eq]
  refine and_congr_right fun _ => ?_
  by_cases hkind : row.kind = .param
  · rw [if_pos hkind]
    cases row.path.head? <;> simp [hkind]
  · simp [hkind]

theorem mem_params_iff_paramRows (hg : build rows = .ok g) {key : String} :
    key ∈ g.params ↔ paramRows key rows ≠ [] := by
  rw [params_build hg, List.mem_eraseDups, List.map_filterMap, List.mem_filterMap]
  constructor
  · rintro ⟨row, hrow⟩
    exact List.ne_nil_of_mem (mem_paramRows.mpr hrow)
  · intro hne
    obtain ⟨row, hrow⟩ := List.exists_mem_of_ne_nil _ hne
    exact ⟨row, mem_paramRows.mp hrow⟩

theorem isSome_type?_of_mem_paramRows (hg : build rows = .ok g) {key : String}
    (hrow : row ∈ paramRows key rows) : row.type?.isSome = true := by
  obtain ⟨hin, hkey⟩ := mem_paramRows.mp hrow
  unfold paramKey? Row.declaredName? at hkey
  split at hkey
  · rename_i hkind
    refine exists_build_iff.mp ⟨g, hg⟩ row hin (Or.inl ⟨hkind, fun hpath => ?_⟩)
    rw [hpath] at hkey
    cases hkey
  · cases hkey

/-- The parameter of a node is what its rows amount to. -/
theorem member_of_node? (hg : build rows = .ok g) {key : String} {node : Node}
    (hnode : g.node? key = some node) : node.member = Row.memberOf (paramRows key rows) := by
  have hmember := Saying.member_summary (Saying.about key (sayings g.ownerOf rows))
  rwa [← node?_build hg, hnode, filterMap_param?_about] at hmember

/-- A parameter has the spelling of its last row. -/
theorem spelling_of_node? (hg : build rows = .ok g) {key : String} {node : Node}
    (hnode : g.node? key = some node) (hparam : node.isParam = true) :
    ∃ last, (paramRows key rows).getLast? = some last ∧ last.path.head? = some node.name := by
  have hnames : (Saying.about key (sayings g.ownerOf rows)).filterMap Saying.paramName? =
      (paramRows key rows).filterMap fun row => row.type?.bind fun _ => row.path.head? := by
    refine filterMap_about_sayings (fun _ => rfl) (fun row name rest hpath => ?_) key g.ownerOf rows
    unfold Row.declaration?
    rw [hpath]
    cases row.kind with
    | param => cases row.type? <;> rfl
    | typedef | enum | field => rfl
  have hspelling := Saying.spelling_summary (Saying.about key (sayings g.ownerOf rows))
  rw [← node?_build hg, hnode, Option.bind_some, if_pos hparam, hnames] at hspelling
  rcases List.eq_nil_or_concat (paramRows key rows) with hnil | ⟨front, last, hlast⟩
  · rw [hnil] at hspelling
    cases hspelling
  · rw [List.concat_eq_append] at hlast
    have hmem : last ∈ paramRows key rows := by
      rw [hlast]
      exact List.mem_append_right _ List.mem_cons_self
    obtain ⟨type, htype⟩ := Option.isSome_iff_exists.mp (isSome_type?_of_mem_paramRows hg hmem)
    refine ⟨last, by rw [hlast, List.getLast?_concat], ?_⟩
    cases hhead : last.path.head? with
    | none =>
        have hkey := (mem_paramRows.mp hmem).2
        rw [paramKey?, Row.declaredName?, hhead, ite_self] at hkey
        cases hkey
    | some name =>
        have hlastName : [last].filterMap (fun row => row.type?.bind fun _ => row.path.head?) =
            [name] := by simp [htype, hhead]
        rw [hlast, List.filterMap_append, hlastName, List.getLast?_concat] at hspelling
        exact hspelling.symm

theorem type_of_node? (hg : build rows = .ok g) {key : String} {node : Node}
    (hnode : g.node? key = some node) :
    node.isTypedef = !(rows.filter (Row.isFor (· == .typedef) key)).isEmpty ∧
      node.enum? = (rows.filter (Row.isFor (· == .enum) key)).getLast?.map (fun row =>
        ⟨row.typeBlock, row.choices⟩) ∧
      node.doc =
        ((rows.filter (Row.isFor Kind.isType key)).getLast?.map (·.description)).getD "" := by
  have htypedef := Saying.isTypedef_summary (Saying.about key (sayings g.ownerOf rows))
  have henum := Saying.enum_summary (Saying.about key (sayings g.ownerOf rows))
  have hdoc := Saying.doc_summary (Saying.about key (sayings g.ownerOf rows))
  rw [← node?_build hg, hnode, filterMap_typedef?_about, List.getLast?_map] at htypedef
  rw [← node?_build hg, hnode, filterMap_decl?_about, List.getLast?_map] at henum
  rw [← node?_build hg, hnode, filterMap_doc?_about, List.getLast?_map] at hdoc
  refine ⟨?_, henum, hdoc⟩
  change node.isTypedef = _ at htypedef
  rw [htypedef]
  rcases List.eq_nil_or_concat (rows.filter (Row.isFor (· == .typedef) key)) with hnil | ⟨_, _, hlast⟩
  · rw [hnil]
    rfl
  · rw [hlast, List.concat_eq_append, List.getLast?_concat]
    simp

theorem isSome_node?_of_isFor (hg : build rows = .ok g) (hrow : row ∈ rows) {key : String}
    (hkey : row.isFor (· != .field) key = true) : (g.node? key).isSome = true := by
  obtain ⟨hkind, hnamed⟩ := Bool.and_eq_true_iff.mp hkey
  obtain ⟨name, rest, hpath⟩ := Row.exists_path_of_isNamed hnamed
  have hdeclaration : ∃ s, row.declaration? = some s := by
    unfold Row.declaration?
    rw [hpath]
    cases hrowKind : row.kind with
    | field => rw [hrowKind] at hkind; cases hkind
    | typedef => exact ⟨_, rfl⟩
    | enum => exact ⟨_, rfl⟩
    | param =>
        obtain ⟨type, htype⟩ := Option.isSome_iff_exists.mp (exists_build_iff.mp ⟨g, hg⟩ row hrow
          (Or.inl ⟨hrowKind, hpath ▸ List.cons_ne_nil _ _⟩))
        exact ⟨_, by rw [htype]; rfl⟩
  obtain ⟨s, hs⟩ := hdeclaration
  rw [Row.isNamed_of_declaration? hs] at hnamed
  have hmem : s ∈ Saying.about key (sayings g.ownerOf rows) :=
    Saying.mem_about.mpr ⟨List.mem_append_left _ (List.mem_flatMap.mpr
      ⟨row, hrow, Row.mem_declares_of_declaration? hs⟩), beq_iff_eq.mp hnamed⟩
  rw [node?_build hg]
  exact Saying.isSome_summary (List.ne_nil_of_mem hmem)

/-- What the rows say is what the graph that is built of them holds. -/
theorem redeclared_of_build (hg : build rows = .ok g) : g.Redeclared rows where
  params := params_build hg
  params_nodup := (WellFormed.build hg).params_nodup
  param := by
    intro key hkey
    obtain ⟨node, hnode, hparam⟩ := (WellFormed.build hg).mem_params.mp hkey
    obtain ⟨last, hlast, hname⟩ := spelling_of_node? hg hnode hparam
    refine ⟨node, last, hnode, hparam, hlast, hname, ?_⟩
    rw [member_of_node? hg hnode]
    exact Row.lastWritten_memberOf ((mem_params_iff_paramRows hg).mp hkey)
      fun row => isSome_type?_of_mem_paramRows hg
  not_param := by
    intro key hkey node hnode
    have hnone : paramRows key rows = [] :=
      of_not_not fun hne => hkey ((mem_params_iff_paramRows hg).mpr hne)
    constructor
    · rw [← Bool.not_eq_true]
      exact fun hparam => hkey ((WellFormed.build hg).mem_params.mpr ⟨node, hnode, hparam⟩)
    · rw [member_of_node? hg hnode, hnone]
      rfl
  declared := fun row hrow key => isSome_node?_of_isFor hg hrow
  type := fun key node hnode => type_of_node? hg hnode
  field := field_redeclared hg

/-- A graph of the first some rows, when they are read for declarations or for fields. -/
inductive Midway (rows before : List Row) : TypeGraph → Prop where
  | declared {mid : TypeGraph} (hmid : before.foldlM declare .empty = .ok mid) : Midway rows before mid
  | placed {declared mid : TypeGraph} {placed : List Placement}
      (hdeclared : rows.foldlM declare .empty = .ok declared)
      (hmid : before.foldlM (place declared) (declared, []) = .ok (mid, placed)) :
      Midway rows before mid

theorem Keeps.refl (g : TypeGraph) : g.Keeps g := ⟨fun _ h => h, fun _ _ h => h⟩

theorem Keeps.trans {g₁ g₂ g₃ : TypeGraph} (h : g₁.Keeps g₂) (h' : g₂.Keeps g₃) : g₁.Keeps g₃ :=
  ⟨fun key hnode => h'.node key (h.node key hnode),
    fun owner name hfield => h'.field owner name (h.field owner name hfield)⟩

theorem keeps_foldlM_declare {rest : List Row} (h : rest.foldlM declare g = .ok g') : g.Keeps g' :=
  foldlM_induction (motive := g.Keeps) (fun hs hstep => hs.trans (keeps_declare hstep)) (.refl g) h

theorem keeps_foldlM_place {rest : List Row} (h : rest.foldlM (place declared) state = .ok state') :
    state.1.Keeps state'.1 :=
  foldlM_induction (motive := fun s : TypeGraph × List Placement => state.1.Keeps s.1)
    (fun hs hstep => hs.trans (keeps_place hstep)) (.refl state.1) h

theorem Midway.keeps {before after : List Row} {mid : TypeGraph} (hrows : rows = before ++ after)
    (hmid : Midway rows before mid) (hg : build rows = .ok g) : mid.Keeps g := by
  obtain ⟨declared, g₂, placed, hdeclared, hplaced, rfl⟩ := build_eq_ok_iff.mp hg
  have hsame : ∀ {g : TypeGraph}, g.Keeps g₂ →
      g.Keeps { g₂ with diagnostics := g₂.unreferencedFields placed } :=
    fun h => ⟨h.node, h.field⟩
  cases hmid with
  | declared hmid =>
      have hrest := hdeclared
      rw [hrows, List.foldlM_append, hmid] at hrest
      exact hsame ((keeps_foldlM_declare hrest).trans (keeps_foldlM_place hplaced))
  | placed hother hmid =>
      cases hdeclared.symm.trans hother
      have hrest := hplaced
      rw [hrows, List.foldlM_append, hmid] at hrest
      exact hsame (keeps_foldlM_place hrest)

/-- What several rows say is settled by the last of them: a parameter, and likewise a field, is as
its last row gives it, with the last default that one gives; rows for types and enumerations leave
that, and rows for parameters leave what those say.  No row takes a node or a field away, neither
when it is read nor by the end. -/
theorem last_row_wins (hg : build rows = .ok g) :
    g.Redeclared rows ∧
      (∀ row g₁ g₂, declare g₁ row = .ok g₂ → g₁.Keeps g₂) ∧
      (∀ row declared state state', place declared state row = .ok state' →
        state.1.Keeps state'.1) ∧
      ∀ before after mid, rows = before ++ after → Midway rows before mid → mid.Keeps g :=
  ⟨redeclared_of_build hg, fun _ _ _ => keeps_declare, fun _ _ _ _ => keeps_place,
    fun _ _ _ hrows hmid => hmid.keeps hrows hg⟩

/-- A parameter in two spellings, of which only the first row has a default, and a type under the
same name between them. -/
def sizeRows : List Row :=
  [⟨.param, ["Size"], "string", [], "big", "", false, 1⟩,
    ⟨.typedef, ["size"], "", [], "", "Sizes", false, 2⟩,
    ⟨.param, ["SIZE"], "int", [], "", "A size", true, 3⟩]

theorem last_row_wins_sizeRows :
    ∃ g node type, build sizeRows = .ok g ∧ g.params = ["size"] ∧ g.node? "size" = some node ∧
      node.name = "SIZE" ∧ node.member.type? = some type ∧ node.member.comment = "A size" ∧
        node.member.default? = some ⟨"big", .annotated⟩ ∧ node.isTypedef = true ∧
          node.doc = "Sizes" := by
  have hbuild : (build sizeRows).toOption.isSome = true := by decide +kernel
  obtain ⟨g, hg⟩ := Option.isSome_iff_exists.mp hbuild
  rw [toOption_eq_some_iff] at hg
  obtain ⟨hredeclared, -⟩ := last_row_wins hg
  have hparams : g.params = ["size"] := hredeclared.params.trans (by decide +kernel)
  obtain ⟨node, last, hnode, -, hlast, hname, hwritten⟩ :=
    hredeclared.param "size" (by rw [hparams]; exact List.mem_cons_self)
  obtain ⟨htypedef, -, hdoc⟩ := hredeclared.type "size" node hnode
  have hrows : paramRows "size" sizeRows = [⟨.param, ["Size"], "string", [], "big", "", false, 1⟩,
      ⟨.param, ["SIZE"], "int", [], "", "A size", true, 3⟩] := by decide +kernel
  rw [hrows] at hlast hwritten
  cases hlast
  obtain ⟨row, type, hrow, -, -, htype, -, hcomment, -⟩ := hwritten.last
  cases hrow
  refine ⟨g, node, type, hg, hparams, hnode, (Option.some.inj hname).symm, htype, hcomment,
    hwritten.default.trans (by decide), htypedef.trans (by decide +kernel),
    hdoc.trans (by decide +kernel)⟩

end TypeGraph

end AnnotatedValues
