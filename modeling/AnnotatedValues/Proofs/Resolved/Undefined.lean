import AnnotatedValues.Proofs.Graph.Order
import AnnotatedValues.Proofs.Resolved.Sweep

/-!
# Undefined names

A key is undefined if some parameter or field has a type of a name with this key
that needs a declaration, while the node has neither fields nor values.  The
sweep lists one name for each such key and no others.  There is a node in any
case, since each type that a row mentions gets one.
-/

namespace AnnotatedValues

open Annotation Fallible

namespace TypeGraph

variable {g : TypeGraph} {type : TypeExpr} {key : String}

/-! ## Names in types -/

/-- Some parameter or field has a type of this name. -/
def Mentions (g : TypeGraph) (name : String) : Prop :=
  ∃ slot m type, g.HasMember slot ∧ g.member? slot = some m ∧ m.type? = some type ∧
    type.base = name

/-- The types in a graph are those of its parameters and fields. -/
theorem WellFormed.mem_memberTypes_iff (hg : g.WellFormed) :
    type ∈ g.memberTypes ↔
      ∃ slot m, g.HasMember slot ∧ g.member? slot = some m ∧ m.type? = some type := by
  rw [memberTypes, List.mem_filterMap]
  constructor
  · rintro ⟨m, hm, htype⟩
    rcases List.mem_append.mp hm with hnode | hfield
    · obtain ⟨⟨key, node⟩, hmem, rfl⟩ := List.mem_map.mp hnode
      have hnode := hg.node?_of_mem hmem
      have hparam : node.isParam = true := by
        rw [← hg.node_typed hnode, htype]
        rfl
      exact ⟨.node key, node.member, hg.mem_params.mpr ⟨node, hnode, hparam⟩,
        by rw [member?, hnode]; rfl, htype⟩
    · obtain ⟨field, hmem, rfl⟩ := List.mem_map.mp hfield
      have hfield := hg.field?_of_mem hmem
      exact ⟨.field field.owner field.name, field.member, by rw [HasMember, hfield]; rfl,
        by rw [member?, hfield]; rfl, htype⟩
  · rintro ⟨slot, m, -, hm, htype⟩
    exact ⟨m, Resolver.mem_members_of_member? hm, htype⟩

theorem WellFormed.mentions_iff (hg : g.WellFormed) {name : String} :
    g.Mentions name ↔ ∃ type ∈ g.memberTypes, type.base = name := by
  constructor
  · rintro ⟨slot, m, type, hslot, hm, htype, hbase⟩
    exact ⟨type, hg.mem_memberTypes_iff.mpr ⟨slot, m, hslot, hm, htype⟩, hbase⟩
  · rintro ⟨type, htype, hbase⟩
    obtain ⟨slot, m, hslot, hm, htype⟩ := hg.mem_memberTypes_iff.mp htype
    exact ⟨slot, m, type, hslot, hm, htype, hbase⟩

/-! ## Nodes of names -/

/-- What a row for a parameter or field says, it also says of the name of its type. -/
theorem mention_mem_sayings {rows : List Row} {row : Row} (hrow : row ∈ rows)
    (hkind : (row.declaredName? .param).isSome = true ∨ row.fieldPath?.isSome = true)
    (htype : row.type? = some type) (hbase : Builtin.isName type.base = false)
    (owner : String → String) : .mention type.base ∈ sayings owner rows := by
  have hmention : Saying.mention type.base ∈ type.mentions := TypeExpr.mem_mentions.mpr ⟨hbase, rfl⟩
  refine mem_sayings.mpr ⟨row, hrow, hkind.imp (fun hparam => ?_) fun hfield => ?_⟩
  · obtain ⟨name, hname⟩ := Option.isSome_iff_exists.mp hparam
    exact Row.mem_declares_iff.mpr (Or.inl ⟨name, type, hname, htype, Or.inr hmention⟩)
  · obtain ⟨path, hpath⟩ := Option.isSome_iff_exists.mp hfield
    exact Row.mem_places_iff.mpr ⟨path, type, hpath, htype, Or.inr hmention⟩

/-- The name of each type has a node, unless it is built in. -/
theorem Built.isSome_node?_base (hg : g.Built) (htype : type ∈ g.memberTypes)
    (hbase : Builtin.isName type.base = false) : (g.node? (keyOf type.base)).isSome = true := by
  induction hg with
  | rows hg =>
      obtain ⟨m, hm, hread⟩ := List.mem_filterMap.mp htype
      obtain ⟨row, hrow, hkind, hread⟩ := exists_row_of_mem_members hg hm hread
      have hmention := mention_mem_sayings hrow hkind hread hbase
      rw [node?_build hg]
      exact Saying.isSome_summary
        (List.ne_nil_of_mem (Saying.mem_about.mpr ⟨hmention _, Saying.key_mention _⟩))
  | @sample slot text g hg ih =>
      -- Samples change neither the types nor which nodes there are.
      have hbare := bare_setSample slot text g
      have htypes := congrArg memberTypes hbare
      have hnode := congrArg (fun g => (g.node? (keyOf type.base)).isSome) hbare
      simp only [bare_eq_mapMembers, memberTypes_mapMembers (h := Member.bare) _ fun _ => rfl,
        node?_mapMembers, Option.isSome_map] at htypes hnode
      rw [hnode]
      exact ih (htypes ▸ htype)

/-! ## The listed names -/

/-- The node of the key has neither fields nor values. -/
def IsVacant (g : TypeGraph) (key : String) : Prop :=
  ∃ node, g.node? key = some node ∧ g.hasFields key = false ∧ node.values = []

/-- A key whose node is vacant, while the type of some parameter or field has a name with this key
that is neither built in nor one of a kind of resources. -/
def Undefined (g : TypeGraph) (key : String) : Prop :=
  (∃ name, g.Mentions name ∧ keyOf name = key ∧ Builtin.isName name = false ∧
    Builtin.isContextual name = false) ∧ g.IsVacant key

/-- A type fails to resolve exactly if it makes its key undefined. -/
theorem Built.resolve_eq_error_iff (hg : g.Built) (htype : type ∈ g.memberTypes) {e : Unresolved} :
    (Resolver.ofGraph g).resolve type = .error e ↔
      e.name = type.base ∧ Builtin.isName type.base = false ∧
        Builtin.isContextual type.base = false ∧ g.IsVacant (keyOf type.base) := by
  rw [Resolver.resolve_eq_error_iff (r := .ofGraph g) hg.wellFormed, Resolver.graph_ofGraph]
  refine and_congr_right fun _ => and_congr_right fun hbase => and_congr_right fun _ => ?_
  obtain ⟨node, hnode⟩ := Option.isSome_iff_exists.mp (hg.isSome_node?_base htype hbase)
  rw [Resolver.enumRef?_eq_none_iff_values (r := .ofGraph g) hnode, IsVacant]
  constructor
  · rintro ⟨hfields, hvalues⟩
    exact ⟨node, hnode, hfields, hvalues⟩
  · rintro ⟨other, hother, hfields, hvalues⟩
    cases hnode.symm.trans hother
    exact ⟨hfields, hvalues⟩

theorem Built.mem_keys_undefinedTypes_iff (hg : g.Built) :
    key ∈ (Resolver.ofGraph g).undefinedTypes.map keyOf ↔ g.Undefined key := by
  rw [((Resolver.ofGraph g).perm_undefinedTypes.map keyOf).mem_iff,
    Resolver.mem_keys_unresolvedNames_iff, Resolver.graph_ofGraph]
  constructor
  · rintro ⟨-, type, htype, e, hresolve, rfl⟩
    obtain ⟨hname, hbase, hcontextual, hvacant⟩ := (hg.resolve_eq_error_iff htype).mp hresolve
    rw [hname]
    exact ⟨⟨type.base, hg.wellFormed.mentions_iff.mpr ⟨type, htype, rfl⟩, rfl, hbase, hcontextual⟩,
      hvacant⟩
  · rintro ⟨⟨_, hmentions, rfl, hbase, hcontextual⟩, hvacant⟩
    obtain ⟨type, htype, rfl⟩ := hg.wellFormed.mentions_iff.mp hmentions
    exact ⟨List.not_mem_nil, type, htype, ⟨type.base⟩,
      (hg.resolve_eq_error_iff htype).mpr ⟨rfl, hbase, hcontextual, hvacant⟩, rfl⟩

theorem Built.mentions_of_mem_undefinedTypes (hg : g.Built) {name : String}
    (h : name ∈ (Resolver.ofGraph g).undefinedTypes) : g.Mentions name := by
  rw [(Resolver.ofGraph g).perm_undefinedTypes.mem_iff] at h
  obtain ⟨type, htype, hresolve⟩ := Resolver.exists_type_of_mem_unresolvedNames h
  obtain ⟨hname, -⟩ := (hg.resolve_eq_error_iff htype).mp hresolve
  exact hg.wellFormed.mentions_iff.mpr ⟨type, htype, hname.symm⟩

/-- The sweep lists exactly the undefined keys, each by one name that is mentioned, and the names
ascend. -/
theorem Built.undefinedTypes_exact (hg : g.Built) :
    (∀ key, key ∈ (Resolver.ofGraph g).undefinedTypes.map keyOf ↔ g.Undefined key) ∧
      ((Resolver.ofGraph g).undefinedTypes.map keyOf).Nodup ∧
      (∀ name ∈ (Resolver.ofGraph g).undefinedTypes, g.Mentions name) ∧
      (Resolver.ofGraph g).undefinedTypes.Pairwise (· < ·) :=
  ⟨fun _ => hg.mem_keys_undefinedTypes_iff, Resolver.nodup_keys_undefinedTypes _,
    fun _ => hg.mentions_of_mem_undefinedTypes, Resolver.pairwise_undefinedTypes _⟩

/-- A declared type without fields, an enumeration without values, a kind of resources in two
spellings, and a name that only gets a field after it is mentioned. -/
def sweptRows : List Row :=
  [⟨.typedef, ["Empty"], "struct", [], "", "", false, 1⟩,
    ⟨.param, ["all"], "[]Empty", [], "", "", false, 2⟩,
    ⟨.param, ["some"], "*EMPTY", [], "", "", false, 3⟩,
    ⟨.param, ["exact"], "resources", [], "", "", false, 4⟩,
    ⟨.param, ["capital"], "Resources", [], "", "", false, 5⟩,
    ⟨.enum, ["tier"], "string", [], "", "", false, 6⟩,
    ⟨.param, ["level"], "map[string]tier", [], "", "", false, 7⟩,
    ⟨.param, ["late"], "Late", [], "", "", false, 8⟩,
    ⟨.field, ["late", "at"], "time", [], "", "", false, 9⟩]

theorem undefined_iff_sweptRows :
    ∃ g, build sweptRows = .ok g ∧ g.Mentions "tier" ∧ g.Mentions "Empty" ∧
      ∀ key, g.Undefined key ↔ key ∈ ["empty", "resources", "tier"] := by
  have hbuild : ((build sweptRows).toOption.map fun g =>
      (Resolver.ofGraph g).unresolvedNames g.memberTypes []) =
      some ["Empty", "Resources", "tier"] := by
    decide +kernel
  obtain ⟨g, hg, hnames⟩ := map_toOption_eq_some_iff.mp hbuild
  have hundefined : (Resolver.ofGraph g).undefinedTypes = ["Empty", "Resources", "tier"] := by
    refine (congrArg (List.mergeSort · _) hnames).trans ?_
    exact List.mergeSort_of_pairwise (by decide)
  obtain ⟨hkeys, -, hmentioned, -⟩ := Built.undefinedTypes_exact (.rows hg)
  rw [hundefined] at hkeys hmentioned
  refine ⟨g, hg, hmentioned "tier" (by decide), hmentioned "Empty" (by decide), fun key => ?_⟩
  rw [← hkeys]
  rfl

end TypeGraph

end AnnotatedValues
