import AnnotatedValues.Graph.Build
import AnnotatedValues.Graph.Samples
import AnnotatedValues.Proofs.Keyed

/-!
# Looking up nodes and fields after an update

Each operation that builds or samples a graph is described by what it does to
the two lookups, `node?` and `field?`, and to the list of parameters.  Later
proofs use these equations and never unfold an operation.
-/

namespace AnnotatedValues

/-! ## Changing the first member that fits -/

/-- The list with the first member changed that fits. -/
def modifyFirst {α : Type} (fits : α → Bool) (f : α → α) : (as : List α) → List α
  | [] => []
  | a :: as => if fits a then f a :: as else a :: modifyFirst fits f as

section

variable {α β : Type} {fits : α → Bool} {f : α → α} {as : List α}

/-- Either nothing fits, or there is a first that does. -/
theorem modifyFirst_cases (fits : α → Bool) (f : α → α) (as : List α) :
    (modifyFirst fits f as = as ∧ as.find? fits = none) ∨
      ∃ before a after, as = before ++ a :: after ∧ as.find? fits = some a ∧
        modifyFirst fits f as = before ++ f a :: after := by
  induction as with
  | nil => exact Or.inl ⟨rfl, rfl⟩
  | cons first as ih =>
      rw [modifyFirst]
      cases hfirst : fits first with
      | true =>
          rw [List.find?_cons_of_pos hfirst]
          exact Or.inr ⟨[], first, as, rfl, rfl, rfl⟩
      | false =>
          rw [List.find?_cons_of_neg (Bool.eq_false_iff.mp hfirst), if_neg Bool.false_ne_true]
          rcases ih with ⟨hsame, hnone⟩ | ⟨before, a, after, rfl, hfound, hchanged⟩
          · exact Or.inl ⟨by rw [hsame], hnone⟩
          · exact Or.inr ⟨first :: before, a, after, rfl, hfound, by rw [hchanged]; rfl⟩

theorem mem_modifyFirst {b : α} (h : b ∈ modifyFirst fits f as) : b ∈ as ∨ ∃ a ∈ as, b = f a := by
  rcases modifyFirst_cases fits f as with ⟨hsame, -⟩ | ⟨before, a, after, rfl, -, hchanged⟩
  · exact Or.inl (hsame ▸ h)
  · rw [hchanged, List.mem_append, List.mem_cons] at h
    rcases h with hbefore | rfl | hafter
    · exact Or.inl (List.mem_append_left _ hbefore)
    · exact Or.inr ⟨a, List.mem_append_right _ List.mem_cons_self, rfl⟩
    · exact Or.inl (List.mem_append_right _ (List.mem_cons_of_mem a hafter))

/-- A change that is not seen. -/
theorem map_modifyFirst {view : α → β} (hf : ∀ a, view (f a) = view a) :
    (modifyFirst fits f as).map view = as.map view := by
  rcases modifyFirst_cases fits f as with ⟨hsame, -⟩ | ⟨before, a, after, rfl, -, hchanged⟩
  · rw [hsame]
  · rw [hchanged, List.map_append, List.map_append, List.map_cons, List.map_cons, hf]

theorem modifyFirst_eq_self (h : ∀ a, as.find? fits = some a → f a = a) :
    modifyFirst fits f as = as := by
  rcases modifyFirst_cases fits f as with ⟨hsame, -⟩ | ⟨before, a, after, rfl, hfound, hchanged⟩
  · exact hsame
  · rw [hchanged, h a hfound]

/-- The change is found where the changed member was, -/
theorem find?_modifyFirst (hf : ∀ a, fits (f a) = fits a) :
    (modifyFirst fits f as).find? fits = (as.find? fits).map f := by
  induction as with
  | nil => rfl
  | cons first as ih =>
      rw [modifyFirst]
      cases hfirst : fits first with
      | true =>
          rw [if_pos rfl, List.find?_cons_of_pos hfirst,
            List.find?_cons_of_pos ((hf first).trans hfirst)]
          rfl
      | false =>
          have hmiss : ¬ fits first = true := Bool.eq_false_iff.mp hfirst
          rw [if_neg Bool.false_ne_true, List.find?_cons_of_neg hmiss, List.find?_cons_of_neg hmiss,
            ih]

/-- and is not seen where it does not fit. -/
theorem find?_modifyFirst_of_disjoint {sought : α → Bool} (hf : ∀ a, sought (f a) = sought a)
    (hdisjoint : ∀ a, fits a = true → sought a = false) :
    (modifyFirst fits f as).find? sought = as.find? sought := by
  rcases modifyFirst_cases fits f as with ⟨hsame, -⟩ | ⟨before, a, after, rfl, hfound, hchanged⟩
  · rw [hsame]
  · have hmiss := hdisjoint a (List.find?_some hfound)
    rw [hchanged, List.find?_append, List.find?_append,
      List.find?_cons_of_neg (Bool.eq_false_iff.mp hmiss),
      List.find?_cons_of_neg (Bool.eq_false_iff.mp ((hf a).trans hmiss))]

/-- Where keys differ, the first member of a key is all there are. -/
theorem modifyFirst_eq_map [DecidableEq β] {key : α → β} {k : β}
    (hfits : ∀ a, fits a = true ↔ key a = k) (hkeys : (as.map key).Nodup) :
    modifyFirst fits f as = as.map fun a => if key a = k then f a else a := by
  induction as with
  | nil => rfl
  | cons first as ih =>
      rw [List.map_cons, List.nodup_cons] at hkeys
      rw [modifyFirst, List.map_cons]
      by_cases hkey : key first = k
      · have hrest : as.map (fun a => if key a = k then f a else a) = as := by
          refine (List.map_congr_left fun a ha => if_neg ?_).trans (List.map_id _)
          rintro rfl
          exact hkeys.1 (hkey ▸ List.mem_map_of_mem ha)
        rw [if_pos ((hfits first).mpr hkey), if_pos hkey, hrest]
      · rw [if_neg (mt (hfits first).mp hkey), if_neg hkey, ih hkeys.2]

end

namespace TypeGraph

variable (g : TypeGraph) (key name owner : String)

theorem modifyNode_eq (f : Node → Node) (nodes : List (String × Node)) :
    modifyNode f key nodes = modifyFirst (·.1 == key) (fun e => (e.1, f e.2)) nodes := by
  induction nodes with
  | nil => rfl
  | cons entry nodes ih => rw [modifyNode, modifyFirst, ih]

theorem modifyField_eq (f : Field → Field) (fields : List Field) :
    modifyField f owner name fields =
      modifyFirst (fun x => x.owner == owner && x.name == name) f fields := by
  induction fields with
  | nil => rfl
  | cons field fields ih => rw [modifyField, modifyFirst, ih]

theorem lookup_modifyNode (f : Node → Node) (other : String) (nodes : List (String × Node)) :
    (modifyNode f key nodes).lookup other =
      if other = key then (nodes.lookup other).map f else nodes.lookup other := by
  rw [modifyNode_eq, Keyed.lookup_eq_find?, Keyed.lookup_eq_find?]
  split
  · rename_i hother
    subst hother
    have hfound : (modifyFirst (·.1 == other) (fun e => (e.1, f e.2)) nodes).find?
        (fun e => e.1 == other) = (nodes.find? fun e => e.1 == other).map fun e => (e.1, f e.2) :=
      find?_modifyFirst fun _ => rfl
    rw [hfound, Option.map_map, Option.map_map]
    rfl
  · rename_i hother
    refine congrArg (Option.map Prod.snd) ?_
    refine find?_modifyFirst_of_disjoint (fun _ => rfl) fun e he => ?_
    rw [beq_iff_eq.mp he]
    exact beq_false_of_ne (Ne.symm hother)

/-- Changing the first field of an owner and name changes what is found under these and nothing
else. -/
theorem find?_modifyField (f : Field → Field) (other otherName : String) (fields : List Field)
    (hf : ∀ x, (f x).owner = x.owner ∧ (f x).name = x.name) :
    (modifyField f owner name fields).find? (fun x => x.owner == other && x.name == otherName) =
      if other = owner ∧ otherName = name then
        (fields.find? fun x => x.owner == other && x.name == otherName).map f
      else fields.find? fun x => x.owner == other && x.name == otherName := by
  rw [modifyField_eq]
  split
  · rename_i hother
    obtain ⟨rfl, rfl⟩ := hother
    exact find?_modifyFirst fun x => by rw [(hf x).1, (hf x).2]
  · rename_i hother
    refine find?_modifyFirst_of_disjoint (fun x => by rw [(hf x).1, (hf x).2]) fun x hx => ?_
    rw [Bool.and_eq_true, beq_iff_eq, beq_iff_eq] at hx
    rw [Bool.eq_false_iff, ne_eq, Bool.and_eq_true, beq_iff_eq, beq_iff_eq]
    rintro ⟨rfl, rfl⟩
    exact hother hx

/-! ## Nodes -/

theorem node?_updateNode (f : Node → Node) (other : String) :
    (g.updateNode key f).node? other =
      if other = key then (g.node? other).map f else g.node? other :=
  lookup_modifyNode key f other g.nodes

theorem node?_ensureNode (other : String) :
    (g.ensureNode name).node? other =
      (g.node? other).or (if other = keyOf name then some (.named name) else none) := by
  unfold ensureNode
  split
  · rename_i hsome
    by_cases hother : other = keyOf name
    · subst hother
      obtain ⟨node, hnode⟩ := Option.isSome_iff_exists.mp hsome
      simp [hnode]
    · simp [hother]
  · by_cases hother : other = keyOf name
    · simp [node?, List.lookup_append, hother]
    · have hne : (other == keyOf name) = false := beq_eq_false_iff_ne.mpr hother
      simp [node?, List.lookup_append, List.lookup_cons, hother, hne]

/-- A name that is given a node adds no other, -/
theorem eq_or_of_node?_ensureNode {g : TypeGraph} {name other : String} {node : Node}
    (hnode : (g.ensureNode name).node? other = some node) :
    g.node? other = some node ∨ other = keyOf name ∧ node = .named name := by
  rw [node?_ensureNode, Option.or_eq_some_iff] at hnode
  rcases hnode with hold | ⟨-, hnew⟩
  · exact Or.inl hold
  · obtain ⟨hkey, hnamed⟩ := Option.ite_none_right_eq_some.mp hnew
    exact Or.inr ⟨hkey, (Option.some.inj hnamed).symm⟩

/-- and leaves those there are. -/
theorem node?_ensureNode_of_eq_some {g : TypeGraph} {other : String} {node : Node}
    (hnode : g.node? other = some node) (name : String) :
    (g.ensureNode name).node? other = some node := by
  rw [node?_ensureNode, hnode, Option.some_or]

theorem isSome_node?_ensureNode : ((g.ensureNode name).node? (keyOf name)).isSome = true := by
  rw [node?_ensureNode, if_pos rfl, Option.isSome_or]
  simp

@[simp] theorem node?_ensureField (other : String) :
    (g.ensureField owner name).node? other = g.node? other := by
  unfold ensureField
  split <;> rfl

@[simp] theorem node?_ensureParam (other : String) :
    (g.ensureParam key).node? other = g.node? other := by
  unfold ensureParam
  split <;> rfl

@[simp] theorem node?_updateMember_field (f : Member → Member) (other : String) :
    (g.updateMember (.field owner name) f).node? other = g.node? other := rfl

theorem node?_updateMember_node (f : Member → Member) (other : String) :
    (g.updateMember (.node key) f).node? other =
      if other = key then (g.node? other).map fun node => { node with member := f node.member }
      else g.node? other :=
  node?_updateNode g key _ other

theorem nodes_updateNode (f : Node → Node) :
    (g.updateNode key f).nodes = modifyNode f key g.nodes := rfl

@[simp] theorem nodes_ensureParam : (g.ensureParam key).nodes = g.nodes := by
  unfold ensureParam
  split <;> rfl

@[simp] theorem nodes_ensureField : (g.ensureField owner name).nodes = g.nodes := by
  unfold ensureField
  split <;> rfl

@[simp] theorem nodes_updateMember_field (f : Member → Member) :
    (g.updateMember (.field owner name) f).nodes = g.nodes := rfl

theorem nodes_updateMember_node (f : Member → Member) :
    (g.updateMember (.node key) f).nodes =
      modifyNode (fun node => { node with member := f node.member }) key g.nodes := rfl

/-! ## Fields -/

@[simp] theorem fields_ensureNode : (g.ensureNode name).fields = g.fields := by
  unfold ensureNode
  split <;> rfl

@[simp] theorem field?_ensureNode (other otherName : String) :
    (g.ensureNode name).field? other otherName = g.field? other otherName := by
  simp [field?]

@[simp] theorem fields_ensureParam : (g.ensureParam key).fields = g.fields := by
  unfold ensureParam
  split <;> rfl

theorem field?_ensureField (other otherName : String) :
    (g.ensureField owner name).field? other otherName =
      (g.field? other otherName).or
        (if other = owner ∧ otherName = name then some ⟨owner, name, .blank⟩ else none) := by
  unfold ensureField
  split
  · rename_i hsome
    by_cases hother : other = owner ∧ otherName = name
    · obtain ⟨rfl, rfl⟩ := hother
      obtain ⟨field, hfield⟩ := Option.isSome_iff_exists.mp hsome
      simp [hfield]
    · simp [hother]
  · have hflip : (owner = other ∧ name = otherName) ↔ (other = owner ∧ otherName = name) :=
      and_congr eq_comm eq_comm
    by_cases hother : other = owner ∧ otherName = name
    · simp [field?, List.find?_append, hother]
    · simp [field?, List.find?_append, hflip, hother]

@[simp] theorem field?_updateMember_node (f : Member → Member) (other otherName : String) :
    (g.updateMember (.node key) f).field? other otherName = g.field? other otherName := rfl

theorem field?_updateMember_field (f : Member → Member) (other otherName : String) :
    (g.updateMember (.field owner name) f).field? other otherName =
      if other = owner ∧ otherName = name then
        (g.field? other otherName).map fun field => { field with member := f field.member }
      else g.field? other otherName :=
  find?_modifyField name owner _ other otherName g.fields fun _ => ⟨rfl, rfl⟩

@[simp] theorem fields_updateMember_node (f : Member → Member) :
    (g.updateMember (.node key) f).fields = g.fields := rfl

theorem map_slot_updateMember (slot : Slot) (f : Member → Member) :
    ((g.updateMember slot f).fields.map fun x => (x.owner, x.name)) =
      g.fields.map fun x => (x.owner, x.name) := by
  cases slot with
  | node key => rfl
  | field owner name =>
      rw [updateMember, modifyField_eq]
      exact map_modifyFirst fun _ => rfl

/-! ## Parameters -/

@[simp] theorem params_updateNode (f : Node → Node) : (g.updateNode key f).params = g.params := rfl

@[simp] theorem params_ensureNode : (g.ensureNode name).params = g.params := by
  unfold ensureNode
  split <;> rfl

@[simp] theorem params_ensureField : (g.ensureField owner name).params = g.params := by
  unfold ensureField
  split <;> rfl

/-- The keys with one more, unless it is among them. -/
def adding (keys : List String) (key : String) : List String :=
  if keys.contains key then keys else keys ++ [key]

theorem params_ensureParam : (g.ensureParam key).params = adding g.params key := by
  unfold ensureParam adding
  split <;> rfl

theorem mem_params_ensureParam (other : String) :
    other ∈ (g.ensureParam key).params ↔ other ∈ g.params ∨ other = key := by
  unfold ensureParam
  split
  · rename_i hmem
    rw [List.contains_iff_mem] at hmem
    constructor
    · exact Or.inl
    · rintro (hother | rfl)
      · exact hother
      · exact hmem
  · simp

theorem nodup_params_ensureParam {g : TypeGraph} (key : String) (h : g.params.Nodup) :
    (g.ensureParam key).params.Nodup := by
  unfold ensureParam
  split
  · exact h
  · rename_i hnew
    rw [List.contains_iff_mem] at hnew
    exact Keyed.nodup_append_singleton_iff.mpr ⟨hnew, h⟩

/-! ## What a lookup finds -/

theorem mem_nodes_of_node? {g : TypeGraph} {key : String} {node : Node}
    (hnode : g.node? key = some node) : (key, node) ∈ g.nodes :=
  Keyed.mem_of_lookup hnode

theorem field?_eq_some {g : TypeGraph} {owner name : String} {field : Field}
    (hfield : g.field? owner name = some field) :
    field ∈ g.fields ∧ field.owner = owner ∧ field.name = name := by
  have hat := List.find?_some hfield
  simp only [Bool.and_eq_true, beq_iff_eq] at hat
  exact ⟨List.mem_of_find?_eq_some hfield, hat.1, hat.2⟩

theorem hasFields_iff {g : TypeGraph} {key : String} :
    g.hasFields key = true ↔ ∃ name field, g.field? key name = some field := by
  constructor
  · intro h
    obtain ⟨field, hmem, howner⟩ := List.any_eq_true.mp h
    rw [beq_iff_eq] at howner
    subst howner
    have hsome : (g.field? field.owner field.name).isSome := by
      rw [field?, List.find?_isSome]
      exact ⟨field, hmem, by simp⟩
    obtain ⟨found, hfound⟩ := Option.isSome_iff_exists.mp hsome
    exact ⟨field.name, found, hfound⟩
  · rintro ⟨name, field, hfield⟩
    obtain ⟨hmem, howner, -⟩ := field?_eq_some hfield
    exact List.any_eq_true.mpr ⟨field, hmem, by simp [howner]⟩

end TypeGraph

end AnnotatedValues
