import AnnotatedValues.Proofs.Table.Parameters

/-!
# Fields in tables

A route leads from a struct to a field, through fields whose types hold structs.
The tables without values follow a route as long as each of these types is a
struct, or an array or map of structs, up to one pointer each, and no struct comes
twice.  They have a row for each route of this kind, and no others.
-/

namespace AnnotatedValues

open Annotation Fallible

namespace Resolved

/-- What a path has between a member of the type and the fields of the struct in it. -/
def brackets : Resolved → String
  | .pointer inner => inner.brackets
  | .array inner => "[i]" ++ inner.brackets
  | .map inner => "[name]" ++ inner.brackets
  | _ => ""

/-- Whether the type is a struct or an array or map of structs, up to one pointer each. -/
def isShallow (t : Resolved) : Bool :=
  match t.stripPointer with
  | .struct _ => true
  | .array elem | .map elem => elem.stripPointer.struct?.isSome
  | _ => false

def IsShallow (t : Resolved) : Prop := t.isShallow = true

theorem brackets_stripPointer (t : Resolved) : t.stripPointer.brackets = t.brackets := by
  cases t <;> rfl

/-- A struct that is the type, up to a pointer, is the innermost one and needs no brackets. -/
theorem of_struct?_stripPointer {t : Resolved} {ref : StructRef}
    (h : t.stripPointer.struct? = some ref) : t.innermost? = some ref ∧ t.brackets = "" := by
  refine ⟨innermost?_of_struct?_stripPointer h, ?_⟩
  rw [← brackets_stripPointer, eq_struct_of_struct? h]
  rfl

theorem head?_brackets (t : Resolved) : ∀ c ∈ t.brackets.toList.head?, c = '[' := by
  induction t with
  | pointer inner ih => exact ih
  | array inner ih =>
      intro c hc
      simp only [brackets, String.toList_append] at hc
      exact (Option.some.inj hc).symm
  | map inner ih =>
      intro c hc
      simp only [brackets, String.toList_append] at hc
      exact (Option.some.inj hc).symm
  | primitive p => simp [brackets]
  | format name => simp [brackets]
  | semantic s => simp [brackets]
  | enum ref => simp [brackets]
  | struct ref => simp [brackets]

end Resolved

/-! ## Routes -/

namespace Resolver

/-- A route from the struct `key` at `path` to the field `name` of `owner` at `path'`, through the
structs in `via` and through fields of types that `allowed` holds of. -/
inductive Route (r : Resolver) (allowed : Resolved → Prop) :
    (key path : String) → (via : List String) → (owner name path' : String) → Prop where
  | field {key path : String} {f : Field} (hf : f ∈ r.graph.fieldsOf key) :
      Route r allowed key path [key] key f.name (path ++ "." ++ f.name)
  | step {key path owner name path' : String} {via : List String} {f : Field} {t : Resolved}
      {ref : StructRef} (hf : f ∈ r.graph.fieldsOf key)
      (ht : r.resolveSlot (.field key f.name) = .ok t) (hallowed : allowed t)
      (href : t.innermost? = some ref)
      (rest : Route r allowed ref.key (path ++ "." ++ f.name ++ t.brackets) via owner name path') :
      Route r allowed key path (key :: via) owner name path'

/-- A route from a member of the type at `path`. -/
def Reaches (r : Resolver) (allowed : Resolved → Prop) (t : Resolved) (path : String)
    (via : List String) (owner name path' : String) : Prop :=
  ∃ ref, t.innermost? = some ref ∧ allowed t ∧
    r.Route allowed ref.key (path ++ t.brackets) via owner name path'

variable {r : Resolver} {allowed : Resolved → Prop} {key path owner name path' : String}
  {via : List String}

namespace Route

theorem inside (h : r.Route allowed key path via owner name path') : Table.Inside path path' := by
  induction h with
  | field hf => exact ⟨_, Table.toList_fieldPath _ _⟩
  | @step key path owner name path' via f t ref hf ht hallowed href rest ih =>
      obtain ⟨behind, hpath⟩ := ih
      refine ⟨f.name.toList ++ (t.brackets.toList ++ '.' :: behind), ?_⟩
      rw [hpath, String.toList_append, Table.toList_fieldPath]
      simp

theorem exists_via (h : r.Route allowed key path via owner name path') :
    ∃ rest, via = key :: rest := by
  cases h with
  | field hf => exact ⟨[], rfl⟩
  | step hf ht hallowed href rest => exact ⟨_, rfl⟩

/-- The structs on a route are nodes. -/
theorem via_subset (hg : r.graph.WellFormed) (h : r.Route allowed key path via owner name path') :
    via ⊆ r.graph.nodes.map Prod.fst := by
  have hnode : ∀ {key : String} {f : Field}, f ∈ r.graph.fieldsOf key →
      key ∈ r.graph.nodes.map Prod.fst := by
    intro key f hf
    obtain ⟨field, hfield⟩ := Option.isSome_iff_exists.mp (TypeGraph.hasMember_of_mem_fieldsOf hf)
    obtain ⟨node, hnode⟩ := Option.isSome_iff_exists.mp (hg.owner_known hfield)
    exact List.mem_map_of_mem (f := Prod.fst) (TypeGraph.mem_nodes_of_node? hnode)
  induction h with
  | field hf => exact fun k hk => List.mem_singleton.mp hk ▸ hnode hf
  | step hf ht hallowed href rest ih => exact List.cons_subset.mpr ⟨hnode hf, ih⟩

theorem mono {allowed' : Resolved → Prop} (himp : ∀ t, allowed t → allowed' t)
    (h : r.Route allowed key path via owner name path') :
    r.Route allowed' key path via owner name path' := by
  induction h with
  | field hf => exact .field hf
  | step hf ht hallowed href _ ih => exact .step hf ht (himp _ hallowed) href ih

/-- A path that goes on behind a field has a break there. -/
theorem exists_behind {t : Resolved} {field : String}
    (h : r.Route allowed key (path ++ "." ++ field ++ t.brackets) via owner name path') :
    ∃ rest, rest ≠ [] ∧ (∀ c ∈ rest.head?, Table.isBreak c = true) ∧
      path'.toList = path.toList ++ '.' :: (field.toList ++ rest) := by
  obtain ⟨behind, hpath⟩ := h.inside
  refine ⟨t.brackets.toList ++ '.' :: behind, by simp, fun c hc => ?_, ?_⟩
  · rw [List.head?_append] at hc
    cases hbrackets : t.brackets.toList.head? with
    | none =>
        rw [hbrackets] at hc
        exact Option.some.inj hc ▸ rfl
    | some d =>
        rw [hbrackets] at hc
        rw [← Option.some.inj hc, t.head?_brackets d hbrackets]
        rfl
  · rw [hpath, String.toList_append, Table.toList_fieldPath]
    simp

/-- Names of fields that are parts of paths and behind which a path goes on in the same way. -/
theorem eq_of_behind (hplain : Table.PlainFields r.graph) {f f' : Field}
    (hf : f ∈ r.graph.fieldsOf key) (hf' : f' ∈ r.graph.fieldsOf key) {rest rest' : List Char}
    (hrest : ∀ c ∈ rest.head?, Table.isBreak c = true)
    (hrest' : ∀ c ∈ rest'.head?, Table.isBreak c = true)
    (h : path.toList ++ '.' :: (f.name.toList ++ rest) =
      path.toList ++ '.' :: (f'.name.toList ++ rest')) : f.name = f'.name ∧ rest = rest' := by
  rw [List.append_cancel_left_eq, List.cons.injEq] at h
  obtain ⟨hname, hbehind⟩ := Text.append_inj_of_separator
    (hplain f (TypeGraph.mem_fieldsOf.mp hf).1) (hplain f' (TypeGraph.mem_fieldsOf.mp hf').1)
    hrest hrest' h.2
  exact ⟨String.toList_inj.mp hname, hbehind⟩

/-- The path of a field tells the route to it. -/
theorem unique (hplain : Table.PlainFields r.graph) {allowed' : Resolved → Prop}
    {via' : List String} {owner' name' : String}
    (h : r.Route allowed key path via owner name path')
    (h' : r.Route allowed' key path via' owner' name' path') :
    via = via' ∧ owner = owner' ∧ name = name' := by
  have hend : ∀ path name : String,
      (path ++ "." ++ name).toList = path.toList ++ '.' :: (name.toList ++ []) := by simp
  induction h generalizing via' with
  | @field key path f hf =>
      generalize hpath : path ++ "." ++ f.name = path' at h'
      have hlist := congrArg String.toList hpath
      rw [hend] at hlist
      cases h' with
      | @field _ _ f' hf' =>
          rw [hend] at hlist
          exact ⟨rfl, rfl, (eq_of_behind hplain hf hf' (by simp) (by simp) hlist).1⟩
      | step hf' ht' hallowed' href' rest' =>
          obtain ⟨behind, hne, hbreak, hpath'⟩ := rest'.exists_behind
          rw [hpath'] at hlist
          exact absurd (eq_of_behind hplain hf hf' (by simp) hbreak hlist).2.symm hne
  | @step key path owner name path' via f t ref hf ht hallowed href rest ih =>
      obtain ⟨behind, hne, hbreak, hpath⟩ := rest.exists_behind
      cases h' with
      | @field _ _ f' hf' =>
          rw [hend] at hpath
          exact absurd (eq_of_behind hplain hf' hf (by simp) hbreak hpath).2.symm hne
      | @step _ _ _ _ _ via' f' t' ref' hf' ht' hallowed' href' rest' =>
          obtain ⟨behind', -, hbreak', hpath'⟩ := rest'.exists_behind
          rw [hpath] at hpath'
          obtain ⟨hname, -⟩ := eq_of_behind hplain hf hf' hbreak hbreak' hpath'
          rw [← hname] at ht' rest'
          cases ht.symm.trans ht'
          cases href.symm.trans href'
          obtain ⟨rfl, howner, hsame⟩ := ih rest'
          exact ⟨rfl, howner, hsame⟩

end Route

end Resolver

/-! ## Rows without values -/

namespace Table

open Resolver

variable {r : Resolver} {path path' : String}

/-- Without values a shallow type has one listing. -/
theorem listings_of_isShallow {t : Resolved} (h : t.IsShallow) {ref : StructRef}
    (href : t.innermost? = some ref) (path : String) :
    listings t path none = [⟨path ++ t.brackets, ref.key, none⟩] := by
  rw [← Resolved.innermost?_stripPointer] at href
  rw [← Resolved.brackets_stripPointer]
  unfold Resolved.IsShallow Resolved.isShallow at h
  unfold listings
  cases ht : t.stripPointer with
  | struct s =>
      rw [ht] at href
      cases href
      simp [Resolved.brackets]
  | array elem =>
      rw [ht] at h href
      obtain ⟨s, hs⟩ := Option.isSome_iff_exists.mp h
      obtain ⟨hinner, hbrackets⟩ := Resolved.of_struct?_stripPointer hs
      cases hinner.symm.trans href
      simp [hs, Resolved.brackets, hbrackets, arrayListings]
  | map elem =>
      rw [ht] at h href
      obtain ⟨s, hs⟩ := Option.isSome_iff_exists.mp h
      obtain ⟨hinner, hbrackets⟩ := Resolved.of_struct?_stripPointer hs
      cases hinner.symm.trans href
      simp [hs, Resolved.brackets, hbrackets]
  | primitive _ | format _ | semantic _ | pointer _ | enum _ =>
      rw [ht] at h
      cases h

/-- Without values a type that is not shallow has no listing. -/
theorem listings_of_not_isShallow {t : Resolved} (h : ¬ t.IsShallow) (path : String) :
    listings t path none = [] := by
  unfold Resolved.IsShallow Resolved.isShallow at h
  unfold listings
  cases ht : t.stripPointer with
  | struct s =>
      rw [ht] at h
      exact absurd rfl h
  | array elem =>
      rw [ht, Bool.not_eq_true, Option.isSome_eq_false_iff, Option.isNone_iff_eq_none] at h
      simp [h]
  | map elem =>
      rw [ht, Bool.not_eq_true, Option.isSome_eq_false_iff, Option.isNone_iff_eq_none] at h
      simp [h]
  | primitive _ | format _ | semantic _ | pointer _ | enum _ => rfl

theorem exists_innermost?_of_isShallow {t : Resolved} (h : t.IsShallow) :
    ∃ ref, t.innermost? = some ref := by
  rw [← Resolved.innermost?_stripPointer]
  unfold Resolved.IsShallow Resolved.isShallow at h
  cases ht : t.stripPointer with
  | struct s => exact ⟨s, rfl⟩
  | array elem | map elem =>
      rw [ht] at h
      obtain ⟨s, hs⟩ := Option.isSome_iff_exists.mp h
      exact ⟨s, (Resolved.of_struct?_stripPointer hs).1⟩
  | primitive _ | format _ | semantic _ | pointer _ | enum _ =>
      rw [ht] at h
      cases h

/-- The rows of a member are its own and those of the struct in a shallow type. -/
theorem mem_memberRows_iff {structRows : Listing → Except Unresolved (List Row)} {slot : Slot}
    {t : Resolved} (ht : r.resolveSlot slot = .ok t) {rows : List Row}
    (h : memberRows r structRows path slot none = .ok rows) :
    path' ∈ rows.map (·.path) ↔ path' = path ∨ t.IsShallow ∧ ∃ ref below,
      t.innermost? = some ref ∧ structRows ⟨path ++ t.brackets, ref.key, none⟩ = .ok below ∧
        path' ∈ below.map (·.path) := by
  obtain ⟨type, htype, h⟩ := bind_eq_ok_iff.mp h
  obtain ⟨lists, hlists, h⟩ := bind_eq_ok_iff.mp h
  cases ht.symm.trans htype
  rw [pure_eq_ok_iff] at h
  subst h
  rw [List.map_cons, List.mem_cons]
  refine or_congr_right ?_
  by_cases hshallow : t.IsShallow
  · obtain ⟨ref, href⟩ := exists_innermost?_of_isShallow hshallow
    rw [Option.filter_none, listings_of_isShallow hshallow href, mapM_eq_ok_iff,
      List.forall₂_cons_left_iff] at hlists
    obtain ⟨below, _, hbelow, hnil, rfl⟩ := hlists
    cases hnil
    rw [List.flatten_singleton]
    constructor
    · exact fun hmem => ⟨hshallow, ref, below, href, hbelow, hmem⟩
    · rintro ⟨-, ref', below', href', hbelow', hmem⟩
      cases href.symm.trans href'
      cases hbelow.symm.trans hbelow'
      exact hmem
  · rw [Option.filter_none, listings_of_not_isShallow hshallow] at hlists
    cases hlists
    simp [hshallow]

/-- The rows of a struct in its first listing: those of its fields, and those of the structs in
shallow types. -/
theorem mem_structRows_succ_iff (hr : r.Complete) {fuel : Nat} {stack : List String} {key : String}
    (hfresh : key ∉ stack) {rows : List Row}
    (h : structRows r (fuel + 1) stack ⟨path, key, none⟩ = .ok rows) :
    path' ∈ rows.map (·.path) ↔ ∃ f ∈ r.graph.fieldsOf key, path' = path ++ "." ++ f.name ∨
      ∃ t ref below, r.resolveSlot (.field key f.name) = .ok t ∧ t.IsShallow ∧
        t.innermost? = some ref ∧
        structRows r fuel (key :: stack)
          ⟨path ++ "." ++ f.name ++ t.brackets, ref.key, none⟩ = .ok below ∧
        path' ∈ below.map (·.path) := by
  rw [structRows, if_neg fun hstack => hfresh (List.contains_iff_mem.mp hstack)] at h
  obtain ⟨lists, hlists, h⟩ := bind_eq_ok_iff.mp h
  rw [pure_eq_ok_iff] at h
  subst h
  rw [mem_map_flatten_of_mapM hlists]
  refine exists_congr fun f => and_congr_right fun hf => ?_
  obtain ⟨t, ht⟩ := hr.exists_resolveSlot (TypeGraph.hasMember_of_mem_fieldsOf hf)
  obtain ⟨fieldRows, -, hrows⟩ := exists_result_of_mapM hlists hf
  constructor
  · rintro ⟨fieldRows', hrows', hpath⟩
    rcases (mem_memberRows_iff ht hrows').mp hpath with hown | ⟨hshallow, ref, below, href, hbelow,
      hpath⟩
    · exact Or.inl hown
    · exact Or.inr ⟨t, ref, below, ht, hshallow, href, hbelow, hpath⟩
  · rintro (hown | ⟨t', ref, below, ht', hshallow, href, hbelow, hpath⟩)
    · exact ⟨fieldRows, hrows, (mem_memberRows_iff ht hrows).mpr (Or.inl hown)⟩
    · exact ⟨fieldRows, hrows,
        (mem_memberRows_iff ht' hrows).mpr (Or.inr ⟨hshallow, ref, below, href, hbelow, hpath⟩)⟩

/-- The rows of a struct are at the ends of the routes of shallow types that repeat no struct and
visit none in the list. -/
theorem mem_structRows_iff (hr : r.Complete) {fuel : Nat} {stack : List String} {key : String}
    {rows : List Row} (h : structRows r fuel stack ⟨path, key, none⟩ = .ok rows) :
    path' ∈ rows.map (·.path) ↔ ∃ via owner name,
      r.Route Resolved.IsShallow key path via owner name path' ∧
        via.Nodup ∧ (∀ k ∈ via, k ∉ stack) ∧ via.length ≤ fuel := by
  induction fuel generalizing stack path key rows with
  | zero =>
      cases h
      refine iff_of_false List.not_mem_nil ?_
      rintro ⟨via, owner, name, hroute, -, -, hlength⟩
      obtain ⟨rest, rfl⟩ := hroute.exists_via
      cases hlength
  | succ fuel ih =>
      by_cases hstack : key ∈ stack
      · rw [structRows, if_pos (List.contains_iff_mem.mpr hstack)] at h
        cases h
        refine iff_of_false List.not_mem_nil ?_
        rintro ⟨via, owner, name, hroute, -, hfresh, -⟩
        obtain ⟨rest, rfl⟩ := hroute.exists_via
        exact hfresh key List.mem_cons_self hstack
      rw [mem_structRows_succ_iff hr hstack h]
      constructor
      · rintro ⟨f, hf, rfl | ⟨t, ref, below, ht, hshallow, href, hbelow, hpath⟩⟩
        · exact ⟨[key], key, f.name, .field hf, List.nodup_singleton _, by simpa using hstack,
            Nat.succ_le_succ (Nat.zero_le fuel)⟩
        · obtain ⟨via, owner, name, hroute, hnodup, hvia, hlength⟩ := (ih hbelow).mp hpath
          refine ⟨key :: via, owner, name, .step hf ht hshallow href hroute, ?_, ?_, ?_⟩
          · exact List.nodup_cons.mpr ⟨fun hkey => hvia key hkey List.mem_cons_self, hnodup⟩
          · exact List.forall_mem_cons.mpr
              ⟨hstack, fun k hk hmem => hvia k hk (List.mem_cons_of_mem key hmem)⟩
          · exact Nat.succ_le_succ hlength
      · rintro ⟨via, owner, name, hroute, hnodup, hvia, hlength⟩
        cases hroute with
        | @field _ _ f hf => exact ⟨f, hf, Or.inl rfl⟩
        | @step _ _ _ _ _ via f t ref hf ht hshallow href rest =>
            obtain ⟨below, hbelow⟩ := exists_structRows hr fuel (key :: stack)
              ⟨path ++ "." ++ f.name ++ t.brackets, ref.key, none⟩
            obtain ⟨hkey, hrest⟩ := List.nodup_cons.mp hnodup
            refine ⟨f, hf, Or.inr ⟨t, ref, below, ht, hshallow, href, hbelow, (ih hbelow).mpr
              ⟨via, owner, name, rest, hrest, fun k hk hmem => ?_,
                Nat.le_of_succ_le_succ hlength⟩⟩⟩
            rcases List.mem_cons.mp hmem with rfl | hold
            · exact hkey hk
            · exact hvia k (List.mem_cons_of_mem key hk) hold

/-- The rows of a parameter without a value: its own, and those at the ends of its routes of shallow
types that repeat no struct. -/
theorem mem_paramRows_iff (hr : r.Complete) {name key : String}
    (hkey : r.graph.param? name = some key) {t : Resolved}
    (ht : r.resolveSlot (.node key) = .ok t) {rows : List Row}
    (h : paramRows r .null name = .ok rows) :
    path' ∈ rows.map (·.path) ↔ path' = name ∨ ∃ via owner field,
      via.Nodup ∧ r.Reaches Resolved.IsShallow t name via owner field path' := by
  rw [paramRows, hkey] at h
  change memberRows r _ name (.node key) none = .ok rows at h
  rw [mem_memberRows_iff ht h]
  refine or_congr_right ?_
  constructor
  · rintro ⟨hshallow, ref, below, href, hbelow, hpath⟩
    obtain ⟨via, owner, field, hroute, hnodup, -⟩ := (mem_structRows_iff hr hbelow).mp hpath
    exact ⟨via, owner, field, hnodup, ref, href, hshallow, hroute⟩
  · rintro ⟨via, owner, field, hnodup, ref, href, hshallow, hroute⟩
    obtain ⟨below, hbelow⟩ := exists_structRows hr (r.graph.nodes.length + 1) []
      ⟨name ++ t.brackets, ref.key, none⟩
    refine ⟨hshallow, ref, below, href, hbelow, (mem_structRows_iff hr hbelow).mpr ?_⟩
    have hlength : via.length ≤ (r.graph.nodes.map Prod.fst).length :=
      (hnodup.subperm (hroute.via_subset hr.wellFormed)).length_le
    rw [List.length_map] at hlength
    exact ⟨via, owner, field, hroute, hnodup, by simp, Nat.le_succ_of_le hlength⟩

end Table

/-! ## Fields of a values file -/

namespace ValuesFile

open Resolver Table

variable {source text : String} {f : ValuesFile}

/-- Whatever leads from a member of the type to a field. -/
def Leads (r : Resolver) (t : Resolved) (path : String) (via : List String)
    (owner name path' : String) : Prop := r.Reaches (fun _ => True) t path via owner name path'

theorem Leads.ne {r : Resolver} {t : Resolved} {path : String} {via : List String}
    {owner name path' : String} (h : Leads r t path via owner name path') : path' ≠ path := by
  obtain ⟨ref, -, -, hroute⟩ := h
  rintro rfl
  obtain ⟨rest, hpath⟩ := hroute.inside
  simp at hpath

theorem Leads.unique {r : Resolver} (hplain : PlainFields r.graph) {allowed : Resolved → Prop}
    {t : Resolved} {path : String} {via via' : List String} {owner owner' name name' path' : String}
    (h : Leads r t path via owner name path')
    (h' : r.Reaches allowed t path via' owner' name' path') :
    via = via' ∧ owner = owner' ∧ name = name' := by
  obtain ⟨ref, href, -, hroute⟩ := h
  obtain ⟨ref', href', -, hroute'⟩ := h'
  cases href.symm.trans href'
  exact hroute.unique hplain hroute'

theorem Leads.of_reaches {r : Resolver} {allowed : Resolved → Prop} {t : Resolved} {path : String}
    {via : List String} {owner name path' : String}
    (h : r.Reaches allowed t path via owner name path') : Leads r t path via owner name path' := by
  obtain ⟨ref, href, -, hroute⟩ := h
  exact ⟨ref, href, trivial, hroute.mono fun _ _ => trivial⟩

/-- Without values the tables have a row for a field under the path of a parameter exactly if a
route that repeats no struct leads to it through types that are structs, or arrays or maps of
structs, up to one pointer each. -/
theorem exists_field_row_iff (h : ofText source text = .ok f) {name key : String}
    (hkey : f.resolver.graph.param? name = some key) {t : Resolved}
    (ht : f.resolver.resolveSlot (.node key) = .ok t) :
    ∃ tables rows, f.resolver.tables f.sections .null = .ok tables ∧
      paramRows f.resolver .null name = .ok rows ∧
      (∀ row ∈ rows, ∃ table ∈ tables, row ∈ table.rows) ∧
      ∀ owner field,
        (∃ row ∈ rows, ∃ via, Leads f.resolver t name via owner field row.path) ↔
          ∃ via path, via.Nodup ∧
            f.resolver.Reaches Resolved.IsShallow t name via owner field path := by
  have hr := complete_of_ofText h
  obtain ⟨tables, htables⟩ := hr.exists_tables f.sections .null
  obtain ⟨rows, hrows⟩ := exists_paramRows hr .null name
  refine ⟨tables, rows, htables, hrows, fun row hrow =>
    exists_table_of_listed htables (mem_listed_of_param? h hkey) hrows hrow, fun owner field => ?_⟩
  constructor
  · rintro ⟨row, hrow, via, hleads⟩
    rcases (mem_paramRows_iff hr hkey ht hrows).mp (List.mem_map_of_mem hrow) with hown | ⟨via',
      owner', field', hnodup, hreaches⟩
    · exact absurd hown hleads.ne
    · obtain ⟨rfl, rfl, rfl⟩ := hleads.unique (plainFields_of_ofText h) hreaches
      exact ⟨via, row.path, hnodup, hreaches⟩
  · rintro ⟨via, path, hnodup, hreaches⟩
    have hpath := (mem_paramRows_iff hr hkey ht hrows).mpr
      (Or.inr ⟨via, owner, field, hnodup, hreaches⟩)
    obtain ⟨row, hrow, rfl⟩ := List.mem_map.mp hpath
    exact ⟨row, hrow, via, .of_reaches hreaches⟩

/-- The graph of a text with a parameter `pools` that holds structs with one field. -/
def poolsFile (type : String) : String :=
  "## @param \x7b" ++ type ++ "\x7d pools\n## @field \x7bstring\x7d gpu.name\n"

/-- A type with such a struct inside leads to its field. -/
theorem reaches_gpu {r : Resolver}
    (hfields : r.graph.fields.map (fun x => (x.owner, x.name)) = [("gpu", "name")])
    {t : Resolved} (ht : t.innermost?.map (·.key) = some "gpu") (allowed : Resolved → Prop)
    (hallowed : allowed t) (path : String) :
    ∃ path', r.Reaches allowed t path ["gpu"] "gpu" "name" path' := by
  obtain ⟨ref, href, hkey⟩ := Option.map_eq_some_iff.mp ht
  have hmem : ("gpu", "name") ∈ r.graph.fields.map fun x => (x.owner, x.name) := by
    rw [hfields]
    exact List.mem_cons_self
  obtain ⟨field, hfield, heq⟩ := List.mem_map.mp hmem
  obtain ⟨howner, hname⟩ := Prod.mk.inj heq
  have hroute : r.Route allowed "gpu" (path ++ t.brackets) ["gpu"] "gpu" field.name
      (path ++ t.brackets ++ "." ++ field.name) :=
    .field (TypeGraph.mem_fieldsOf.mpr ⟨hfield, howner⟩)
  rw [hname, ← hkey] at hroute
  rw [← hkey]
  exact ⟨_, ref, href, hallowed, hroute⟩

theorem pointedArray_read :
    ((ofText "values.yaml" (poolsFile "*[]*gpu")).toOption.bind fun f =>
      (f.resolver.resolveSlot (.node "pools")).toOption.map fun t =>
        (f.resolver.graph.param? "pools", f.resolver.graph.fields.map fun x => (x.owner, x.name),
          t.innermost?.map (·.key), t.isShallow)) =
      some (some "pools", [("gpu", "name")], some "gpu", true) := by
  have hchars : (poolsFile "*[]*gpu").toList = _ := Text.toList_append_eq (Text.toList_append_eq
    String.toList_ofList String.toList_ofList) String.toList_ofList
  simp only [ofText, Document.ofText, hchars]
  decide +kernel

/-- A pointer to an array of pointers to structs is followed. -/
theorem exists_field_row_pointedArray :
    ∃ f t rows row via, ofText "values.yaml" (poolsFile "*[]*gpu") = .ok f ∧
      f.resolver.resolveSlot (.node "pools") = .ok t ∧
      paramRows f.resolver .null "pools" = .ok rows ∧ row ∈ rows ∧
      Leads f.resolver t "pools" via "gpu" "name" row.path := by
  obtain ⟨f, hf, hread⟩ := bind_toOption_eq_some_iff.mp pointedArray_read
  obtain ⟨t, ht, hread⟩ := map_toOption_eq_some_iff.mp hread
  simp only [Prod.mk.injEq] at hread
  obtain ⟨hkey, hfields, hinner, hshallow⟩ := hread
  obtain ⟨_, rows, -, hrows, -, hcovered⟩ := exists_field_row_iff hf hkey ht
  obtain ⟨path, hreaches⟩ := reaches_gpu hfields hinner Resolved.IsShallow hshallow "pools"
  obtain ⟨row, hrow, via, hleads⟩ := (hcovered "gpu" "name").mpr
    ⟨["gpu"], path, List.nodup_singleton _, hreaches⟩
  exact ⟨f, t, rows, row, via, hf, ht, hrows, hrow, hleads⟩

theorem nestedArray_read :
    ((ofText "values.yaml" (poolsFile "[][]gpu")).toOption.bind fun f =>
      (f.resolver.resolveSlot (.node "pools")).toOption.map fun t =>
        (f.resolver.graph.param? "pools", f.resolver.graph.fields.map fun x => (x.owner, x.name),
          t.innermost?.map (·.key), (f.resolver.tables f.sections .null).toOption)) =
      some (some "pools", [("gpu", "name")], some "gpu",
        some [⟨"Parameters", [⟨"pools", "", "[][]object", "[]"⟩]⟩]) := by
  have hchars : (poolsFile "[][]gpu").toList = _ := Text.toList_append_eq (Text.toList_append_eq
    String.toList_ofList String.toList_ofList) String.toList_ofList
  simp only [ofText, Document.ofText, hchars]
  decide +kernel

/-- An array of arrays of structs is not. -/
theorem not_exists_field_row_nestedArray :
    ∃ f key t via path tables, ofText "values.yaml" (poolsFile "[][]gpu") = .ok f ∧
      f.resolver.graph.param? "pools" = some key ∧ f.resolver.resolveSlot (.node key) = .ok t ∧
      via.Nodup ∧ Leads f.resolver t "pools" via "gpu" "name" path ∧
      f.resolver.tables f.sections .null = .ok tables ∧
      ∀ table ∈ tables, ∀ row ∈ table.rows, ∀ via,
        ¬ Leads f.resolver t "pools" via "gpu" "name" row.path := by
  obtain ⟨f, hf, hread⟩ := bind_toOption_eq_some_iff.mp nestedArray_read
  obtain ⟨t, ht, hread⟩ := map_toOption_eq_some_iff.mp hread
  simp only [Prod.mk.injEq, toOption_eq_some_iff] at hread
  obtain ⟨hkey, hfields, hinner, htables⟩ := hread
  obtain ⟨path, hleads⟩ := reaches_gpu hfields hinner (fun _ => True) trivial "pools"
  refine ⟨f, "pools", t, ["gpu"], path, _, hf, hkey, ht, List.nodup_singleton _, hleads, htables,
    ?_⟩
  intro table htable row hrow via hleads
  cases List.mem_singleton.mp htable
  cases List.mem_singleton.mp hrow
  exact hleads.ne rfl

end ValuesFile

end AnnotatedValues
