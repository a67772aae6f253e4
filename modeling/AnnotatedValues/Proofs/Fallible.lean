import Mathlib.Data.List.Forall2

/-!
# Steps that can fail

A computation of several steps gives a result exactly when each step does.
Loops over a list are described by the list of their results, and by the
invariants that every step keeps.
-/

namespace AnnotatedValues.Fallible

variable {ε α β γ : Type}

theorem bind_eq_ok_iff {x : Except ε α} {f : α → Except ε β} {b : β} :
    (x >>= f) = .ok b ↔ ∃ a, x = .ok a ∧ f a = .ok b := by
  cases x with
  | error e => simp [bind, Except.bind]
  | ok a => simp [bind, Except.bind]

theorem pure_eq_ok_iff {a b : α} : (pure a : Except ε α) = .ok b ↔ a = b := by
  simp [pure, Except.pure]

theorem map_eq_ok_iff {x : Except ε α} {f : α → β} {b : β} :
    x.map f = .ok b ↔ ∃ a, x = .ok a ∧ f a = b := by
  cases x with
  | error e => simp [Except.map]
  | ok a => simp [Except.map]

theorem map_eq_error_iff {x : Except ε α} {f : α → β} {e : ε} :
    x.map f = .error e ↔ x = .error e := by
  cases x with
  | error e' => simp [Except.map]
  | ok a => simp [Except.map]

/-- A step after which its result is read differently. -/
theorem map_bind_eq {α' β' : Type} {x : Except ε α} {f : α → Except ε β} {view : α → α'}
    {view' : β → β'} {f' : α' → Except ε β'}
    (h : ∀ a, x = .ok a → (f a).map view' = f' (view a)) :
    (x >>= f).map view' = x.map view >>= f' := by
  cases x with
  | error e => rfl
  | ok a => exact h a rfl

theorem mapError_eq_ok_iff {δ : Type} {x : Except ε α} {f : ε → δ} {a : α} :
    x.mapError f = .ok a ↔ x = .ok a := by
  cases x with
  | error e => simp [Except.mapError]
  | ok a' => simp [Except.mapError]

theorem toOption_eq_some_iff {x : Except ε α} {a : α} : x.toOption = some a ↔ x = .ok a := by
  cases x with
  | error e => simp [Except.toOption]
  | ok a' => simp [Except.toOption]

/-- What is computed from a result, if there is one. -/
theorem map_toOption_eq_some_iff {x : Except ε α} {f : α → β} {b : β} :
    x.toOption.map f = some b ↔ ∃ a, x = .ok a ∧ f a = b := by
  simp only [Option.map_eq_some_iff, toOption_eq_some_iff]

theorem toOption_map_inj {f : α → β} (hf : ∀ a b, f a = f b → a = b) {x y : Except ε α} :
    (x.map f).toOption = (y.map f).toOption ↔ x.toOption = y.toOption := by
  have hmap : ∀ z : Except ε α, (z.map f).toOption = z.toOption.map f := fun z => by
    cases z <;> rfl
  rw [hmap, hmap, (Option.map_injective fun a b => hf a b).eq_iff]

theorem bind_toOption_eq_some_iff {x : Except ε α} {f : α → Option β} {b : β} :
    x.toOption.bind f = some b ↔ ∃ a, x = .ok a ∧ f a = some b := by
  simp only [Option.bind_eq_some_iff, toOption_eq_some_iff]

/-- A loop over a list gives the list of the results of its steps. -/
theorem mapM_eq_ok_iff {f : α → Except ε β} {as : List α} {bs : List β} :
    as.mapM f = .ok bs ↔ List.Forall₂ (fun a b => f a = .ok b) as bs := by
  induction as generalizing bs with
  | nil =>
      rw [List.mapM_nil, pure_eq_ok_iff, List.forall₂_nil_left_iff]
      exact eq_comm
  | cons a as ih =>
      simp only [List.mapM_cons, bind_eq_ok_iff, pure_eq_ok_iff]
      constructor
      · rintro ⟨b, hb, rest, hrest, rfl⟩
        exact .cons hb (ih.mp hrest)
      · intro hall
        cases hall with
        | cons hb hrest => exact ⟨_, hb, _, ih.mpr hrest, rfl⟩

/-- A loop whose steps all give results gives one. -/
theorem exists_mapM_eq_ok {f : α → Except ε β} {as : List α}
    (hall : ∀ a ∈ as, ∃ b, f a = .ok b) : ∃ bs, as.mapM f = .ok bs := by
  induction as with
  | nil => exact ⟨[], rfl⟩
  | cons a as ih =>
      obtain ⟨b, hb⟩ := hall a List.mem_cons_self
      obtain ⟨bs, hbs⟩ := ih fun a' ha' => hall a' (List.mem_cons_of_mem a ha')
      exact ⟨b :: bs, by simp only [List.mapM_cons, hb, hbs]; rfl⟩

theorem exists_related_of_mem {related : α → β → Prop} {as : List α} {bs : List β}
    (hall : List.Forall₂ related as bs) {a : α} (ha : a ∈ as) : ∃ b ∈ bs, related a b := by
  induction hall with
  | nil => cases ha
  | cons hhead _ ih =>
      cases ha with
      | head => exact ⟨_, List.mem_cons_self, hhead⟩
      | tail _ ha =>
          obtain ⟨b, hb, hab⟩ := ih ha
          exact ⟨b, List.mem_cons_of_mem _ hb, hab⟩

/-- A loop has a result for each member of its list. -/
theorem exists_result_of_mapM {f : α → Except ε β} {as : List α} {bs : List β}
    (h : as.mapM f = .ok bs) {a : α} (ha : a ∈ as) : ∃ b ∈ bs, f a = .ok b :=
  exists_related_of_mem (mapM_eq_ok_iff.mp h) ha

/-- Each result of a loop is that of a member. -/
theorem exists_mem_of_mapM {f : α → Except ε β} {as : List α} {bs : List β}
    (h : as.mapM f = .ok bs) {b : β} (hb : b ∈ bs) : ∃ a ∈ as, f a = .ok b := by
  have hall : List.Forall₂ (fun b a => f a = .ok b) bs as :=
    List.Forall₂.flip (mapM_eq_ok_iff.mp h)
  exact exists_related_of_mem hall hb

/-- What is read off each result is read off the members, in their order. -/
theorem map_eq_of_mapM {f : α → Except ε β} {view : β → γ} {key : α → γ}
    (step : ∀ {a b}, f a = .ok b → view b = key a) {as : List α} {bs : List β}
    (h : as.mapM f = .ok bs) : bs.map view = as.map key := by
  rw [mapM_eq_ok_iff] at h
  induction h with
  | nil => rfl
  | cons hhead _ ih => rw [List.map_cons, List.map_cons, ih, step hhead]

/-- What is in the lists that a loop gives, is in the list of some member. -/
theorem mem_map_flatten_of_mapM {f : α → Except ε (List β)} {key : β → γ} {as : List α}
    {bss : List (List β)} (h : as.mapM f = .ok bss) {c : γ} :
    c ∈ bss.flatten.map key ↔ ∃ a ∈ as, ∃ bs, f a = .ok bs ∧ c ∈ bs.map key := by
  rw [List.map_flatten, List.mem_flatten]
  constructor
  · rintro ⟨_, hmem, hc⟩
    obtain ⟨bs, hbs, rfl⟩ := List.mem_map.mp hmem
    obtain ⟨a, ha, hresult⟩ := exists_mem_of_mapM h hbs
    exact ⟨a, ha, bs, hresult, hc⟩
  · rintro ⟨a, ha, bs, hresult, hc⟩
    obtain ⟨bs', hbs', hresult'⟩ := exists_result_of_mapM h ha
    cases hresult.symm.trans hresult'
    exact ⟨_, List.mem_map_of_mem hbs', hc⟩

/-- The lists that a loop gives are one without repetitions if each is and no two share a member. -/
theorem nodup_flatten_of_mapM {f : α → Except ε (List β)} (key : β → γ) {apart : α → α → Prop}
    {as : List α} {bss : List (List β)} (h : as.mapM f = .ok bss) (hapart : as.Pairwise apart)
    (hnodup : ∀ {a bs}, f a = .ok bs → (bs.map key).Nodup)
    (hne : ∀ {a a' bs bs'}, apart a a' → f a = .ok bs → f a' = .ok bs' →
      ∀ b ∈ bs, ∀ b' ∈ bs', key b ≠ key b') : (bss.flatten.map key).Nodup := by
  rw [mapM_eq_ok_iff] at h
  induction h with
  | nil => exact List.nodup_nil
  | @cons a bs as bss hhead hrest ih =>
      obtain ⟨hfirst, hothers⟩ := List.pairwise_cons.mp hapart
      rw [List.flatten_cons, List.map_append, List.nodup_append]
      refine ⟨hnodup hhead, ih hothers, ?_⟩
      intro x hx y hy
      obtain ⟨b, hb, rfl⟩ := List.mem_map.mp hx
      obtain ⟨b', hb', rfl⟩ := List.mem_map.mp hy
      obtain ⟨bs', hbs', hmem⟩ := List.mem_flatten.mp hb'
      obtain ⟨a', ha', hresult⟩ := exists_mem_of_mapM (mapM_eq_ok_iff.mpr hrest) hbs'
      exact hne (hfirst a' ha') hhead hresult b hb b' hmem

/-- What every step of a fold over a list keeps, the fold keeps. -/
theorem foldlM_induction_of_mem {f : β → α → Except ε β} {motive : β → Prop} {as : List α}
    (step : ∀ {b a b'}, a ∈ as → motive b → f b a = .ok b' → motive b') {b b' : β}
    (hb : motive b) (h : as.foldlM f b = .ok b') : motive b' := by
  induction as generalizing b with
  | nil =>
      rw [List.foldlM_nil, pure_eq_ok_iff] at h
      exact h ▸ hb
  | cons a as ih =>
      rw [List.foldlM_cons, bind_eq_ok_iff] at h
      obtain ⟨middle, hfirst, hrest⟩ := h
      exact ih (fun hmem => step (List.mem_cons_of_mem a hmem))
        (step List.mem_cons_self hb hfirst) hrest

/-- What steps keep for any members, the fold keeps. -/
theorem foldlM_induction {f : β → α → Except ε β} {motive : β → Prop}
    (step : ∀ {b a b'}, motive b → f b a = .ok b' → motive b') {as : List α} {b b' : β}
    (hb : motive b) (h : as.foldlM f b = .ok b') : motive b' :=
  foldlM_induction_of_mem (fun _ => step) hb h

/-- If each step changes what is read off the state in its own way, the fold changes it by all of
these in turn. -/
theorem foldlM_view {f : β → α → Except ε β} (view : β → γ) (change : γ → α → γ)
    {motive : β → Prop}
    (step : ∀ {b a b'}, motive b → f b a = .ok b' → motive b' ∧ view b' = change (view b) a)
    {as : List α} {b b' : β} (hb : motive b) (h : as.foldlM f b = .ok b') :
    view b' = as.foldl change (view b) := by
  induction as generalizing b with
  | nil =>
      rw [List.foldlM_nil, pure_eq_ok_iff] at h
      rw [h, List.foldl_nil]
  | cons a as ih =>
      rw [List.foldlM_cons, bind_eq_ok_iff] at h
      obtain ⟨middle, hfirst, hrest⟩ := h
      obtain ⟨hmiddle, hview⟩ := step hb hfirst
      rw [List.foldl_cons, ← hview]
      exact ih hmiddle hrest

/-- If what is read off the state goes through the steps of another fold, with the same failures, it
goes through that fold. -/
theorem map_foldlM {β' : Type} {f : β → α → Except ε β} {f' : β' → α → Except ε β'} (view : β → β')
    {motive : β → Prop} (step : ∀ {b} a, motive b → (f b a).map view = f' (view b) a)
    (kept : ∀ {b a b'}, motive b → f b a = .ok b' → motive b') {as : List α} {b : β}
    (hb : motive b) : (as.foldlM f b).map view = as.foldlM f' (view b) := by
  induction as generalizing b with
  | nil => rfl
  | cons a as ih =>
      rw [List.foldlM_cons, List.foldlM_cons, ← step a hb]
      exact map_bind_eq fun b' hb' => ih (kept hb hb')

/-- A fold whose steps depend on the member alone for giving a result gives one exactly if all
members allow it. -/
theorem exists_foldlM_iff {f : β → α → Except ε β} {allowed : α → Prop}
    (step : ∀ b a, (∃ b', f b a = .ok b') ↔ allowed a) (as : List α) (b : β) :
    (∃ b', as.foldlM f b = .ok b') ↔ ∀ a ∈ as, allowed a := by
  induction as generalizing b with
  | nil => simp [pure_eq_ok_iff]
  | cons a as ih =>
      rw [List.forall_mem_cons, ← step b a]
      simp only [List.foldlM_cons, bind_eq_ok_iff]
      constructor
      · rintro ⟨b', middle, hfirst, hrest⟩
        exact ⟨⟨middle, hfirst⟩, (ih middle).mp ⟨b', hrest⟩⟩
      · rintro ⟨⟨middle, hfirst⟩, hrest⟩
        obtain ⟨b', hb'⟩ := (ih middle).mpr hrest
        exact ⟨b', middle, hfirst, hb'⟩

/-- Two folds over related members, whose steps keep their states related, end related. -/
theorem foldlM_related {α' β' : Type} {f : β → α → Except ε β} {f' : β' → α' → Except ε β'}
    {member : α → α' → Prop} {state : β → β' → Prop}
    (step : ∀ {b b' a a' c}, state b b' → member a a' → f b a = .ok c →
      ∃ c', f' b' a' = .ok c' ∧ state c c')
    {as : List α} {as' : List α'} (hall : List.Forall₂ member as as') {b c : β} {b' : β'}
    (hb : state b b') (h : as.foldlM f b = .ok c) :
    ∃ c', as'.foldlM f' b' = .ok c' ∧ state c c' := by
  induction hall generalizing b b' with
  | nil =>
      rw [List.foldlM_nil, pure_eq_ok_iff] at h
      subst h
      exact ⟨b', rfl, hb⟩
  | cons hhead _ ih =>
      rw [List.foldlM_cons, bind_eq_ok_iff] at h
      obtain ⟨middle, hfirst, hrest⟩ := h
      obtain ⟨middle', hfirst', hmiddle⟩ := step hb hhead hfirst
      obtain ⟨c', hrest', hc⟩ := ih hmiddle hrest
      refine ⟨c', ?_, hc⟩
      rw [List.foldlM_cons, bind_eq_ok_iff]
      exact ⟨middle', hfirst', hrest'⟩

end AnnotatedValues.Fallible
