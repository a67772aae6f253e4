import AnnotatedValues.Proofs.Resolved.Reachability

/-!
# Expansions that share a stack

The structs that are being expanded can be kept in one stack for all that is
computed: a struct is put on it when its expansion starts, and what is on top is
taken off when it ends.  A struct that is on the stack is not expanded again.
Such a computation follows one that is told the structs around it: both have the
same result, structs nest while it runs, and the stack is as before if it succeeds.
-/

namespace AnnotatedValues

/-! ## Computations with a stack -/

/-- What happens to the stack. -/
inductive Expansion where
  | starts (key : String)
  | ends
  deriving DecidableEq, Repr

/-- The structs being expanded, the innermost first, and all that has happened to them. -/
structure Progress where
  stack : List String
  past : List Expansion
  deriving DecidableEq, Repr

def Progress.start : Progress := ⟨[], []⟩

/-- A computation that finds a result or a name without a schema, or goes on beyond the levels of
nesting that it is given, and then has neither. -/
abbrev Guarded (α : Type) : Type := ExceptT Unresolved (StateT Progress Option) α

namespace Guarded

variable {α β : Type}

/-- What a computation finds from a state, and the state that it leaves. -/
def runFrom (x : Guarded α) (s : Progress) : Option (Except Unresolved α × Progress) := x.run.run s

/-- A result that needs no stack. -/
def lift (y : Except Unresolved α) : Guarded α := ExceptT.mk (pure y)

def tooDeep : Guarded α := ExceptT.mk fun _ => none

def push (key : String) : Guarded Unit :=
  modify fun s => ⟨key :: s.stack, s.past ++ [.starts key]⟩

def pop : Guarded Unit :=
  modify fun s => ⟨s.stack.tail, s.past ++ [.ends]⟩

/-- The expansion of a struct, or `cut` if it is being expanded. -/
def expanding (key : String) (cut : α) (body : Guarded α) : Guarded α := do
  let s ← get
  if s.stack.contains key then return cut
  else do
    push key
    let a ← body
    pop
    return a

theorem runFrom_bind (x : Guarded α) (f : α → Guarded β) (s : Progress) :
    (x >>= f).runFrom s = (x.runFrom s).bind fun
      | (.ok a, s') => (f a).runFrom s'
      | (.error e, s') => some (.error e, s') := by
  unfold runFrom
  rw [ExceptT.run_bind, StateT.run_bind]
  cases x.run.run s with
  | none => rfl
  | some p =>
      obtain ⟨y, s'⟩ := p
      cases y <;> rfl

theorem runFrom_expanding (key : String) (cut : α) (body : Guarded α) (s : Progress) :
    (expanding key cut body).runFrom s =
      if s.stack.contains key then some (.ok cut, s)
      else (body.runFrom ⟨key :: s.stack, s.past ++ [.starts key]⟩).map fun
        | (.ok a, s') => (.ok a, ⟨s'.stack.tail, s'.past ++ [.ends]⟩)
        | (.error e, s') => (.error e, s') := by
  have hget : expanding key cut body =
      (get >>= fun s => if s.stack.contains key then pure cut
        else push key >>= fun _ => body >>= fun a => pop >>= fun _ => pure a) := rfl
  rw [hget, runFrom_bind]
  change ((if s.stack.contains key then pure cut
    else push key >>= fun _ => body >>= fun a => pop >>= fun _ => pure a : Guarded α)).runFrom s = _
  split
  · rfl
  · rw [runFrom_bind]
    change (body >>= fun a => pop >>= fun _ => pure a : Guarded α).runFrom
      ⟨key :: s.stack, s.past ++ [.starts key]⟩ = _
    rw [runFrom_bind]
    cases body.runFrom ⟨key :: s.stack, s.past ++ [.starts key]⟩ with
    | none => rfl
    | some p =>
        obtain ⟨y, s'⟩ := p
        cases y <;> rfl

end Guarded

/-! ## Nested expansions -/

/-- Expansions nest, from the structs of one stack to those of another: none starts inside itself,
and the last one that started is the first to end. -/
inductive Nests : List String → List Expansion → List String → Prop where
  | done (stack : List String) : Nests stack [] stack
  | starts {key : String} {stack stack' : List String} {expansions : List Expansion}
      (hfresh : key ∉ stack) (hrest : Nests (key :: stack) expansions stack') :
      Nests stack (.starts key :: expansions) stack'
  | ends (key : String) {stack stack' : List String} {expansions : List Expansion}
      (hrest : Nests stack expansions stack') : Nests (key :: stack) (.ends :: expansions) stack'

namespace Nests

variable {stack stack' stack'' : List String} {expansions more : List Expansion}

theorem append (h : Nests stack expansions stack') (hmore : Nests stack' more stack'') :
    Nests stack (expansions ++ more) stack'' := by
  induction h with
  | done => exact hmore
  | starts hfresh _ ih => exact .starts hfresh (ih hmore)
  | ends key _ ih => exact .ends key (ih hmore)

/-- However far they are, the structs that are being expanded differ. -/
theorem nodup_of_append (h : Nests stack (expansions ++ more) stack'') (hstack : stack.Nodup) :
    ∃ stack', Nests stack expansions stack' ∧ stack'.Nodup ∧ Nests stack' more stack'' := by
  induction expansions generalizing stack with
  | nil => exact ⟨stack, .done stack, hstack, h⟩
  | cons first expansions ih =>
      cases h with
      | starts hfresh hrest =>
          obtain ⟨stack', hnests, hnodup, hmore⟩ := ih hrest (List.nodup_cons.mpr ⟨hfresh, hstack⟩)
          exact ⟨stack', .starts hfresh hnests, hnodup, hmore⟩
      | ends key hrest =>
          obtain ⟨stack', hnests, hnodup, hmore⟩ := ih hrest (List.nodup_cons.mp hstack).2
          exact ⟨stack', .ends key hnests, hnodup, hmore⟩

end Nests

/-- At no time is a struct being expanded twice. -/
def NeverTwice (past : List Expansion) : Prop :=
  ∀ before after, past = before ++ after → ∃ stack, Nests [] before stack ∧ stack.Nodup

theorem Nests.neverTwice {stack : List String} {past : List Expansion} (h : Nests [] past stack) :
    NeverTwice past := by
  rintro before after rfl
  obtain ⟨inside, hnests, hnodup, -⟩ := h.nodup_of_append List.nodup_nil
  exact ⟨inside, hnests, hnodup⟩

/-! ## Results told the structs around them -/

/-- Inside the structs of a stack, a computation ends with the given result.  Expansions nest all the
while, and the stack is as before if it succeeds. -/
def Follows {α : Type} (stack : List String) (x : Guarded α) (y : Except Unresolved α) : Prop :=
  ∀ past, ∃ more stack', x.runFrom ⟨stack, past⟩ = some (y, ⟨stack', past ++ more⟩) ∧
    Nests stack more stack' ∧ ∀ a, y = .ok a → stack' = stack

/-- Started without any structs, the computation ends with the given result, and no struct is ever
expanded inside itself. -/
def Guarded.EndsOnce {α : Type} (x : Guarded α) (y : Except Unresolved α) : Prop :=
  ∃ s, x.runFrom .start = some (y, s) ∧ NeverTwice s.past

/-- Each of some computations ends with the given result alone, and also after any others of them
that succeed, which leave no structs on the stack. -/
def Unaffected {α β : Type} (render : β → Guarded α) (alone : β → Except Unresolved α) : Prop :=
  ∀ b, Follows [] (render b) (alone b) ∧
    ∀ (before : List β) past results s,
      (before.mapM render).runFrom ⟨[], past⟩ = some (.ok results, s) →
        s.stack = [] ∧ ∃ s', (render b).runFrom s = some (alone b, s')

namespace Follows

variable {α β : Type} {stack : List String}

theorem lift (stack : List String) (y : Except Unresolved α) : Follows stack (.lift y) y :=
  fun past => ⟨[], stack, by rw [List.append_nil]; rfl, .done stack, fun _ _ => rfl⟩

theorem pure (stack : List String) (a : α) : Follows stack (Pure.pure a) (.ok a) :=
  lift stack (.ok a)

theorem bind {x : Guarded α} {y : Except Unresolved α} {f : α → Guarded β}
    {g : α → Except Unresolved β} (h : Follows stack x y)
    (hf : ∀ a, y = .ok a → Follows stack (f a) (g a)) : Follows stack (x >>= f) (y >>= g) := by
  intro past
  obtain ⟨more, stack', hrun, hnests, hback⟩ := h past
  rw [Guarded.runFrom_bind, hrun]
  cases y with
  | error e => exact ⟨more, stack', rfl, hnests, fun b hb => by cases hb⟩
  | ok a =>
      obtain rfl := hback a rfl
      obtain ⟨more', stack'', hrun', hnests', hback'⟩ := hf a rfl (past ++ more)
      refine ⟨more ++ more', stack'', ?_, hnests.append hnests', hback'⟩
      rw [← List.append_assoc]
      exact hrun'

theorem map {x : Guarded α} {y : Except Unresolved α} (h : Follows stack x y) (f : α → β) :
    Follows stack (x >>= fun a => Pure.pure (f a)) (y.map f) := by
  have hmap : y.map f = y >>= fun a => .ok (f a) := by cases y <;> rfl
  rw [hmap]
  exact h.bind fun a _ => pure stack (f a)

theorem mapM {xs : List α} {f : α → Guarded β} {g : α → Except Unresolved β}
    (h : ∀ a ∈ xs, Follows stack (f a) (g a)) : Follows stack (xs.mapM f) (xs.mapM g) := by
  induction xs with
  | nil => exact pure stack []
  | cons a xs ih =>
      rw [List.mapM_cons, List.mapM_cons]
      refine (h a List.mem_cons_self).bind fun b _ => ?_
      refine (ih fun a' ha' => h a' (List.mem_cons_of_mem a ha')).bind fun bs _ => ?_
      exact pure stack (b :: bs)

/-- A struct is expanded inside itself as the cut, and otherwise on top of the stack. -/
theorem expanding {key : String} {cut : α} {body : Guarded α} {y : Except Unresolved α}
    (hbody : key ∉ stack → Follows (key :: stack) body y) :
    Follows stack (.expanding key cut body) (if stack.contains key then .ok cut else y) := by
  intro past
  rw [Guarded.runFrom_expanding]
  split
  · exact ⟨[], stack, by rw [List.append_nil], .done stack, fun _ _ => rfl⟩
  · rename_i hmem
    have hfresh : key ∉ stack := fun h => hmem (List.contains_iff_mem.mpr h)
    obtain ⟨more, stack', hrun, hnests, hback⟩ := hbody hfresh (past ++ [.starts key])
    rw [List.append_assoc] at hrun
    rw [hrun]
    cases y with
    | error e =>
        exact ⟨.starts key :: more, stack', rfl, .starts hfresh hnests, fun a ha => by cases ha⟩
    | ok a =>
        obtain rfl := hback a rfl
        have hpast : past ++ ([.starts key] ++ more) ++ [.ends] =
            past ++ .starts key :: (more ++ [.ends]) := List.append_assoc past _ _
        refine ⟨.starts key :: (more ++ [.ends]), stack, ?_,
          .starts hfresh (hnests.append (.ends key (.done stack))), fun _ _ => rfl⟩
        rw [← hpast]
        rfl

/-- A computation that starts without any structs ends. -/
theorem endsOnce {x : Guarded α} {y : Except Unresolved α} (h : Follows [] x y) : x.EndsOnce y := by
  obtain ⟨past, stack, hrun, hnests, -⟩ := h []
  exact ⟨_, hrun, hnests.neverTwice⟩

/-- After any that succeed, each has the result that it has alone. -/
theorem unaffected {render : β → Guarded α} {alone : β → Except Unresolved α}
    (h : ∀ b, Follows [] (render b) (alone b)) : Unaffected render alone := by
  intro b
  refine ⟨h b, fun before past results s hrun => ?_⟩
  have hbefore : Follows [] (before.mapM render) (before.mapM alone) := .mapM fun b' _ => h b'
  obtain ⟨more, stack, hrun', -, hback⟩ := hbefore past
  rw [hrun, Option.some.injEq, Prod.mk.injEq] at hrun'
  obtain ⟨hresults, rfl⟩ := hrun'
  obtain rfl := hback results hresults.symm
  obtain ⟨more', stack', hnext, -⟩ := h b (past ++ more)
  exact ⟨rfl, _, hnext⟩

end Follows

/-! ## Levels for the structs on a stack -/

namespace Resolver.Room

variable {r : Resolver} {levels : Nat} {stack : List String}

/-- The levels that are needed: one for each other node, and one more.  A struct on the stack needs
one less. -/
theorem budget_eq (h : r.Room levels stack) : r.graph.nodes.length + 1 - stack.length =
    r.graph.nodes.length - stack.length + 1 := by
  have hlength := h.length_le
  omega

theorem budget_push (r : Resolver) (key : String) (stack : List String) :
    r.graph.nodes.length + 1 - (key :: stack).length = r.graph.nodes.length - stack.length :=
  Nat.add_sub_add_right _ 1 _

end Resolver.Room

end AnnotatedValues
