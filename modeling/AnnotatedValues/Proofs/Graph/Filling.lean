import AnnotatedValues.Proofs.Graph.Descent

/-!
# Samples fill gaps

Sampling gives members without a default a sample and changes nothing else.
Which members a document reaches is decided without looking at defaults, so that
a document that is sampled again finds all gaps filled.
-/

namespace AnnotatedValues.TypeGraph

/-! ## Graphs with gaps filled -/

/-- The first graph, with samples where it has no defaults. -/
structure Fills (g g' : TypeGraph) : Prop where
  bare : g'.bare = g.bare
  kept : ∀ slot d, g.default? slot = some d → g'.default? slot = some d
  sampled : ∀ slot, g.default? slot = none →
    g'.default? slot = none ∨ ∃ text ≠ "", g'.default? slot = some ⟨text, .sampled⟩

theorem Fills.refl (g : TypeGraph) : g.Fills g := ⟨rfl, fun _ _ h => h, fun _ h => Or.inl h⟩

theorem Fills.trans {g₁ g₂ g₃ : TypeGraph} (h : g₁.Fills g₂) (h' : g₂.Fills g₃) : g₁.Fills g₃ where
  bare := h'.bare.trans h.bare
  kept slot d hd := h'.kept slot d (h.kept slot d hd)
  sampled slot hnone := by
    rcases h.sampled slot hnone with hnone | ⟨text, htext, hsample⟩
    · exact h'.sampled slot hnone
    · exact Or.inr ⟨text, htext, h'.kept slot _ hsample⟩

variable {g g' : TypeGraph}

theorem fills_setSample (g : TypeGraph) (slot : Slot) (text : String) :
    g.Fills (setSample slot text g) where
  bare := bare_setSample slot text g
  kept other d hd := default?_setSample_of_eq_some hd slot text
  sampled other hnone := by
    by_cases hother : other = slot
    · subst hother
      cases hm : g.member? other with
      | none =>
          left
          rw [default?, setSample, member?_updateMember, if_pos rfl, hm]
          rfl
      | some m =>
          rw [default?, hm] at hnone
          cases htext : text.isEmpty with
          | true =>
              left
              rw [default?, setSample, member?_updateMember, if_pos rfl, hm]
              simpa [htext] using hnone
          | false =>
              refine Or.inr ⟨text, ?_, default?_setSample_self hm hnone htext⟩
              rintro rfl
              cases htext
    · left
      rw [default?, member?_setSample_of_ne hother]
      exact hnone

theorem fills_sampleValue (path : List String) (slot : Slot) (g : TypeGraph) (d : Document) :
    g.Fills (sampleValue path slot g d) :=
  sampleValue_induction (motive := g.Fills) (fun slot text g' h => h.trans (fills_setSample g' slot text))
    path slot g (.refl g) d

theorem fills_sampleEntries (path : List String) (owner : Option String) (g : TypeGraph)
    (entries : List (String × Document)) : g.Fills (sampleEntries path owner g entries) :=
  sampleEntries_induction (motive := g.Fills)
    (fun slot text g' h => h.trans (fills_setSample g' slot text)) path owner g (.refl g) entries

theorem fills_populate (g : TypeGraph) (values : Document) : g.Fills (g.populate values) :=
  fills_sampleEntries [] none g values.entries

/-- Any documents, one after the other, fill gaps only. -/
theorem fills_foldl_populate (g : TypeGraph) (documents : List Document) :
    g.Fills (documents.foldl populate g) := by
  induction documents generalizing g with
  | nil => exact .refl g
  | cons values documents ih => exact (fills_populate g values).trans (ih (g.populate values))

/-! ## Filled gaps stay -/

theorem modifyNode_eq_self {f : Node → Node} {key : String} {nodes : List (String × Node)}
    (h : ∀ node, nodes.lookup key = some node → f node = node) : modifyNode f key nodes = nodes := by
  rw [modifyNode_eq]
  refine modifyFirst_eq_self fun e he => ?_
  rw [h e.2 (by rw [Keyed.lookup_eq_find?, he]; rfl)]

theorem modifyField_eq_self {f : Field → Field} {owner name : String} {fields : List Field}
    (h : ∀ field, (fields.find? fun x => x.owner == owner && x.name == name) = some field →
      f field = field) : modifyField f owner name fields = fields := by
  rw [modifyField_eq]
  exact modifyFirst_eq_self h

theorem updateMember_eq_self {slot : Slot} {f : Member → Member}
    (h : ∀ m, g.member? slot = some m → f m = m) : g.updateMember slot f = g := by
  cases slot with
  | node key =>
      have hnodes : modifyNode (fun n => { n with member := f n.member }) key g.nodes = g.nodes :=
        modifyNode_eq_self fun node hnode => by
          rw [h node.member (by rw [member?, node?, hnode]; rfl)]
      rw [updateMember, updateNode, hnodes]
  | field owner name =>
      have hfields : modifyField (fun x => { x with member := f x.member }) owner name g.fields =
          g.fields := modifyField_eq_self fun field hfield => by
        rw [h field.member (by rw [member?, field?, hfield]; rfl)]
      rw [updateMember, hfields]

/-- A sample that was taken is not taken again. -/
theorem Fills.setSample_eq_self {slot : Slot} {text : String}
    (h : (setSample slot text g).Fills g') : setSample slot text g' = g' := by
  refine updateMember_eq_self fun m hm => ?_
  have hbare : g'.bare.member? slot = g.bare.member? slot :=
    congrArg (member? · slot) (h.bare.trans (bare_setSample slot text g))
  rw [member?_bare, member?_bare, hm] at hbare
  obtain ⟨m', hm', -⟩ := Option.map_eq_some_iff.mp hbare.symm
  have hfilled : m.default?.isSome = true ∨ text.isEmpty = true := by
    by_contra hgap
    rw [not_or, Option.not_isSome_iff_eq_none, Bool.not_eq_true] at hgap
    have hdefault : ∃ d, (setSample slot text g).default? slot = some d := by
      cases hd : m'.default? with
      | none => exact ⟨_, default?_setSample_self hm' hd hgap.2⟩
      | some d =>
          refine ⟨d, default?_setSample_of_eq_some ?_ slot text⟩
          rw [default?, hm']
          exact hd
    obtain ⟨d, hd⟩ := hdefault
    have hkept := h.kept slot d hd
    rw [default?, hm, Option.bind_some, hgap.1] at hkept
    cases hkept
  rcases hfilled with hdefault | htext
  · simp [hdefault]
  · simp [htext]

theorem Fills.structAt?_eq (h : g.Fills g') (slot : Slot) : g'.structAt? slot = g.structAt? slot := by
  have hbare : ∀ g : TypeGraph, g.bare.structAt? = g.structAt? := fun g =>
    structAt?_mapMembers g (h := Member.bare) fun _ => rfl
  rw [← hbare, h.bare, hbare]

theorem Fills.slotOf?_eq (h : g.Fills g') (owner : Option String) (key : String) :
    g'.slotOf? owner key = g.slotOf? owner key := by
  rw [← slotOf?_bare, h.bare, slotOf?_bare]

mutual

/-- A graph that has all samples of a value already is not changed by them, -/
theorem Fills.sampleValue_eq_self {path : List String} {slot : Slot} {g g' : TypeGraph} :
    (d : Document) → (sampleValue path slot g d).Fills g' → sampleValue path slot g' d = g'
  | .null, _ => rfl
  | .bool _, h => h.setSample_eq_self
  | .number _, h => h.setSample_eq_self
  | .string _, h => h.setSample_eq_self
  | .array _, h => h.setSample_eq_self
  | .object entries, h => by
      have hstruct := ((fills_sampleValue path slot g (.object entries)).trans h).structAt?_eq slot
      rw [sampleValue] at h ⊢
      rw [hstruct]
      have hinside := (fills_setSample _ slot (Document.object entries).yaml).trans h
      have hsample := h.setSample_eq_self
      revert hinside
      split
      · rename_i owner _
        split
        · exact fun _ => hsample
        · intro hinside
          rw [hinside.sampleEntries_eq_self entries]
          exact hsample
      · exact fun _ => hsample
termination_by structural d => d

/-- and neither is one that has those of the entries of an object. -/
theorem Fills.sampleEntries_eq_self {path : List String} {owner : Option String}
    {g g' : TypeGraph} : (entries : List (String × Document)) →
      (sampleEntries path owner g entries).Fills g' → sampleEntries path owner g' entries = g'
  | [], _ => rfl
  | (key, value) :: entries, h => by
      have hslot := ((fills_sampleEntries path owner g ((key, value) :: entries)).trans h).slotOf?_eq
        owner key
      rw [sampleEntries] at h ⊢
      rw [hslot]
      have hfirst := (fills_sampleEntries path owner _ entries).trans h
      have hrest := h.sampleEntries_eq_self entries
      revert hfirst
      split
      · intro hfirst
        rw [hfirst.sampleValue_eq_self value]
        exact hrest
      · exact fun _ => hrest
termination_by structural entries => entries

end

/-- Values that were sampled have nothing to give to a graph with gaps filled since. -/
theorem Fills.populate_eq_self {values : Document} (h : (g.populate values).Fills g') :
    g'.populate values = g' :=
  Fills.sampleEntries_eq_self values.entries h

end AnnotatedValues.TypeGraph
