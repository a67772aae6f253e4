import AnnotatedValues.Proofs.Resolved.Resolution

/-!
# Letter case of type names

Nodes are found whatever the letter case of a name.  The names of kinds of
resources, like built-in names, are only known in lower case.  So two spellings
of one name denote the same if both or neither of them is such a name; one that
is agrees with one that is not exactly on a node with fields and without values,
which is a struct under either.
-/

namespace AnnotatedValues

/-- Two expressions that differ in nothing but their names. -/
inductive TypeExpr.SameShape : TypeExpr → TypeExpr → Prop where
  | named (name other : String) : SameShape (.named name) (.named other)
  | pointer {a b : TypeExpr} (h : SameShape a b) : SameShape (.pointer a) (.pointer b)
  | array {a b : TypeExpr} (h : SameShape a b) : SameShape (.array a) (.array b)
  | map {a b : TypeExpr} (h : SameShape a b) : SameShape (.map a) (.map b)

/-- The node of the key has fields, and no values. -/
def TypeGraph.IsPlainStruct (g : TypeGraph) (key : String) : Prop :=
  ∃ node, g.node? key = some node ∧ g.hasFields key = true ∧ node.values = []

namespace Resolver

open Fallible

variable {r : Resolver} {a b : TypeExpr} {name other : String}

/-- Both expressions resolve, and to one type, or neither does. -/
def SameOutcome (r : Resolver) (a b : TypeExpr) : Prop :=
  (∃ t, r.resolve a = .ok t ∧ r.resolve b = .ok t) ∨
    (∃ e, r.resolve a = .error e) ∧ ∃ e, r.resolve b = .error e

theorem sameOutcome_iff_toOption :
    r.SameOutcome a b ↔ (r.resolve a).toOption = (r.resolve b).toOption := by
  unfold SameOutcome
  cases r.resolve a <;> cases r.resolve b <;> simp [Except.toOption, eq_comm]

/-! ## Names -/

theorem declared?_congr (hkey : keyOf name = keyOf other) :
    r.declared? name = r.declared? other := by
  unfold declared? TypeGraph.lookup?
  rw [hkey]

theorem contextual_congr (hkey : keyOf name = keyOf other) :
    r.contextual name = r.contextual other := by
  unfold contextual TypeGraph.lookup?
  rw [hkey]

/-- What a name denotes as a declared one is what it denotes as one of a kind of resources, exactly
if its node is a plain struct. -/
theorem declared?_eq_contextual_iff :
    r.declared? name = some (r.contextual name) ↔ r.graph.IsPlainStruct (keyOf name) := by
  unfold declared? contextual TypeGraph.lookup? TypeGraph.IsPlainStruct
  cases hnode : r.graph.node? (keyOf name) with
  | none => simp
  | some node =>
      simp only [Option.isSome_some, if_pos, Option.filter_some, Option.some.injEq, exists_eq_left',
        ← enumRef?_eq_none_iff_values hnode]
      cases r.enumRef? (keyOf name) <;> cases r.graph.hasFields (keyOf name) <;> simp

theorem toOption_resolveName (hname : Builtin.isName name = false) :
    (r.resolveName name).toOption =
      if Builtin.isContextual name then some (r.contextual name) else r.declared? name := by
  unfold resolveName
  rw [builtin?_eq_none_iff.mpr hname]
  dsimp only
  split
  · rfl
  · cases r.declared? name <;> rfl

/-! ## Expressions -/

/-- Equal wrappers around two names leave it to the names whether the outcomes agree. -/
theorem sameOutcome_iff_resolveName (hshape : a.SameShape b) :
    r.SameOutcome a b ↔ (r.resolveName a.base).toOption = (r.resolveName b.base).toOption := by
  rw [sameOutcome_iff_toOption]
  induction hshape with
  | named name other => exact Iff.rfl
  | pointer _ ih =>
      rw [resolve, resolve, toOption_map_inj fun _ _ => Resolved.pointer.inj]
      exact ih
  | array _ ih =>
      rw [resolve, resolve, toOption_map_inj fun _ _ => Resolved.array.inj]
      exact ih
  | map _ ih =>
      rw [resolve, resolve, toOption_map_inj fun _ _ => Resolved.map.inj]
      exact ih

/-- Two spellings of a name, neither of them built in, have the same outcome exactly if both or
neither are names of a kind of resources, or their node is a plain struct. -/
theorem sameOutcome_iff (hshape : a.SameShape b) (ha : Builtin.isName a.base = false)
    (hb : Builtin.isName b.base = false) (hkey : keyOf a.base = keyOf b.base) :
    r.SameOutcome a b ↔ Builtin.isContextual a.base = Builtin.isContextual b.base ∨
      r.graph.IsPlainStruct (keyOf a.base) := by
  rw [sameOutcome_iff_resolveName hshape, toOption_resolveName ha, toOption_resolveName hb,
    declared?_congr hkey.symm, contextual_congr hkey.symm]
  cases Builtin.isContextual a.base <;> cases Builtin.isContextual b.base
  case false.false | true.true => simp
  case false.true => simp [declared?_eq_contextual_iff]
  case true.false =>
    rw [← declared?_eq_contextual_iff]
    simp [eq_comm]

/-- A name of a kind of resources in two spellings, and another with a field. -/
def resourceRows : List Annotation.Row :=
  [⟨.param, ["own"], "resources", [], "", "", false, 1⟩,
    ⟨.param, ["shared"], "Resources", [], "", "", false, 2⟩,
    ⟨.param, ["most"], "*Limit", [], "", "", false, 3⟩,
    ⟨.field, ["limit", "cpu"], "quantity", [], "", "", false, 4⟩]

theorem resourceRows_graph :
    ((TypeGraph.build resourceRows).toOption.map fun g =>
      (["resources", "Resources"].map fun name => ((ofGraph g).resolve (.named name)).toOption,
        (g.node? "limit").map fun node => (g.hasFields "limit", node.values))) =
      some ([some (.semantic .object), none], some (true, [])) := by
  decide +kernel

/-- Without fields, only the spelling in lower case stands for any object. -/
theorem not_sameOutcome_resources :
    ∃ g, TypeGraph.build resourceRows = .ok g ∧
      (TypeExpr.named "resources").SameShape (.named "Resources") ∧
      Builtin.isName "resources" = false ∧ Builtin.isName "Resources" = false ∧
      keyOf "resources" = keyOf "Resources" ∧
      ¬ (ofGraph g).SameOutcome (.named "resources") (.named "Resources") := by
  obtain ⟨g, hg, hgraph⟩ := map_toOption_eq_some_iff.mp resourceRows_graph
  obtain ⟨houtcomes, -⟩ := Prod.mk.inj hgraph
  obtain ⟨hlower, htail⟩ := List.cons.inj houtcomes
  obtain ⟨hupper, -⟩ := List.cons.inj htail
  refine ⟨g, hg, .named _ _, by decide, by decide, by decide +kernel, fun hsame => ?_⟩
  rw [sameOutcome_iff_toOption] at hsame
  exact Option.some_ne_none _ (hlower.symm.trans (hsame.trans hupper))

/-- With fields, all spellings stand for their struct. -/
theorem sameOutcome_limit :
    ∃ g, TypeGraph.build resourceRows = .ok g ∧
      (ofGraph g).SameOutcome (.pointer (.named "Limit")) (.pointer (.named "limit")) := by
  obtain ⟨g, hg, hgraph⟩ := map_toOption_eq_some_iff.mp resourceRows_graph
  obtain ⟨node, hnode, hplain⟩ := Option.map_eq_some_iff.mp (Prod.mk.inj hgraph).2
  obtain ⟨hfields, hvalues⟩ := Prod.mk.inj hplain
  have hkey : keyOf "Limit" = "limit" := by decide +kernel
  have hstruct : (ofGraph g).graph.IsPlainStruct (keyOf "Limit") := by
    rw [hkey]
    exact ⟨node, hnode, hfields, hvalues⟩
  exact ⟨g, hg, (sameOutcome_iff (.pointer (.named _ _)) (by decide) (by decide)
    (by decide +kernel)).mpr (Or.inr hstruct)⟩

end Resolver

end AnnotatedValues
