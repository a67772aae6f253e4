import AnnotatedValues.Annotation.Literal

/-!
# Balanced brackets

The search for the end of a block counts the open brackets and skips double
quotes.  A text is nested for a relation between opening and closing brackets
when each bracket outside of quotes is closed by one that is related to it.
Counting finds the end of what is nested when the two kinds of brackets are
not told apart.
-/

namespace AnnotatedValues.Annotation

/-- Neither a bracket nor a double quote. -/
def isPlain (c : Char) : Bool := !isOpening c && !isClosing c && c != '"'

/-- A text between double quotes, in which a quote stands behind a backslash only. -/
inductive IsQuotable : List Char → Prop
  | nil : IsQuotable []
  | plain {c : Char} {cs : List Char} :
      c ≠ '"' → c ≠ '\\' → IsQuotable cs → IsQuotable (c :: cs)
  | escape {c : Char} {cs : List Char} : IsQuotable cs → IsQuotable ('\\' :: c :: cs)

/-- Outside of quotes each opening bracket is closed by one that `pairs` relates to it. -/
inductive Nested (pairs : Char → Char → Bool) : List Char → Prop
  | nil : Nested pairs []
  | plain {c : Char} {cs : List Char} : isPlain c = true → Nested pairs cs → Nested pairs (c :: cs)
  | quoted {text cs : List Char} :
      IsQuotable text → Nested pairs cs → Nested pairs ('"' :: (text ++ '"' :: cs))
  | bracketed {o c : Char} {inside cs : List Char} : isOpening o = true → isClosing c = true →
      pairs o c = true → Nested pairs inside → Nested pairs cs →
      Nested pairs (o :: (inside ++ c :: cs))

/-- Brackets of one kind. -/
def ownKind (o c : Char) : Bool := (o == '{' && c == '}') || (o == '[' && c == ']')

/-- Brackets of whatever kind. -/
def anyKind (_ _ : Char) : Bool := true

theorem isClosing_of_isOpening {c : Char} (h : isOpening c = true) : isClosing c = false := by
  rcases (Bool.or_eq_true _ _).mp h with h | h <;> rw [beq_iff_eq.mp h] <;> rfl

theorem isOpening_of_isClosing {c : Char} (h : isClosing c = true) : isOpening c = false :=
  Bool.eq_false_iff.mpr fun ho => Bool.false_ne_true ((isClosing_of_isOpening ho).symm.trans h)

theorem isClosing_of_isPlain {c : Char} (h : isPlain c = true) : isClosing c = false := by
  simp only [isPlain, Bool.and_eq_true, Bool.not_eq_true'] at h
  exact h.1.2

theorem isPlain_of {p : Char → Bool} (hp : ['{', '[', '}', ']', '"'].any p = false) {c : Char}
    (hc : p c = true) : isPlain c = true := by
  have hmarks : c ∉ ['{', '[', '}', ']', '"'] := fun hmem => List.any_eq_false.mp hp c hmem hc
  simp only [List.mem_cons, List.not_mem_nil, or_false, not_or] at hmarks
  simp [isPlain, isOpening, isClosing, hmarks]

theorem IsQuotable.of_not_mem {text : List Char} (hquote : '"' ∉ text) (hescape : '\\' ∉ text) :
    IsQuotable text := by
  induction text with
  | nil => exact .nil
  | cons c text ih =>
      rw [List.mem_cons, not_or] at hquote hescape
      exact .plain (Ne.symm hquote.1) (Ne.symm hescape.1) (ih hquote.2 hescape.2)

theorem IsQuotable.append {a b : List Char} (ha : IsQuotable a) (hb : IsQuotable b) :
    IsQuotable (a ++ b) := by
  induction ha with
  | nil => exact hb
  | plain hquote hescape _ ih => exact .plain hquote hescape ih
  | escape _ ih => exact .escape ih

namespace Nested

variable {pairs : Char → Char → Bool} {a b : List Char}

theorem append (ha : Nested pairs a) (hb : Nested pairs b) : Nested pairs (a ++ b) := by
  induction ha with
  | nil => exact hb
  | plain hc _ ih => exact .plain hc ih
  | quoted htext _ ih =>
      rw [List.cons_append, List.append_assoc]
      exact .quoted htext ih
  | bracketed ho hc hpair hinside _ _ ih =>
      rw [List.cons_append, List.append_assoc]
      exact .bracketed ho hc hpair hinside ih

theorem of_plain (h : ∀ c ∈ a, isPlain c = true) : Nested pairs a := by
  induction a with
  | nil => exact .nil
  | cons c a ih =>
      rw [List.forall_mem_cons] at h
      exact .plain h.1 (ih h.2)

/-- A nested text that begins with an opening bracket is nested up to the one that closes it, and
behind it. -/
theorem of_opening {o : Char} {cs : List Char} (ho : isOpening o = true)
    (h : Nested pairs (o :: cs)) :
    ∃ inside c rest, cs = inside ++ c :: rest ∧ isClosing c = true ∧ pairs o c = true ∧
      Nested pairs inside ∧ Nested pairs rest := by
  cases h with
  | plain hplain => simp [isPlain, ho] at hplain
  | quoted => cases ho
  | bracketed _ hc hpair hinside hrest => exact ⟨_, _, _, rfl, hc, hpair, hinside, hrest⟩

theorem of_quote {cs : List Char} (h : Nested pairs ('"' :: cs)) :
    ∃ text rest, cs = text ++ '"' :: rest ∧ IsQuotable text ∧ Nested pairs rest := by
  cases h with
  | plain hplain => cases hplain
  | quoted htext hrest => exact ⟨_, _, rfl, htext, hrest⟩
  | bracketed ho => cases ho

theorem of_plain_cons {c : Char} {cs : List Char} (hc : isPlain c = true)
    (h : Nested pairs (c :: cs)) : Nested pairs cs := by
  cases h with
  | plain _ hrest => exact hrest
  | quoted => cases hc
  | bracketed ho => simp [isPlain, ho] at hc

theorem not_closing {c : Char} {cs : List Char} (hc : isClosing c = true) :
    ¬ Nested pairs (c :: cs) := by
  intro h
  cases h with
  | plain hplain => simp [isPlain, hc] at hplain
  | quoted => cases hc
  | bracketed ho => exact Bool.false_ne_true ((isClosing_of_isOpening ho).symm.trans hc)

end Nested

/-! ## Open brackets -/

/-- The text closes the open brackets one by one, the last of them with its last character. -/
inductive Closes (pairs : Char → Char → Bool) : List Char → List Char → Prop
  | nil : Closes pairs [] []
  | cons {o c : Char} {stack inside cs : List Char} : isClosing c = true → pairs o c = true →
      Nested pairs inside → Closes pairs stack cs → Closes pairs (o :: stack) (inside ++ c :: cs)

/-- The text closes the open brackets, from inside of quotes or from outside. -/
def ClosesFrom (pairs : Char → Char → Bool) (stack : List Char) : Quoting → List Char → Prop
  | .outside, cs => Closes pairs stack cs
  | .inside, cs => ∃ text rest, cs = text ++ '"' :: rest ∧ IsQuotable text ∧ Closes pairs stack rest
  | .escaped, cs =>
      ∃ c text rest, cs = c :: (text ++ '"' :: rest) ∧ IsQuotable text ∧ Closes pairs stack rest

section

variable {pairs : Char → Char → Bool} {o c d : Char} {stack cs : List Char}

theorem closes_singleton_iff :
    Closes pairs [o] cs ↔
      ∃ inside c, cs = inside ++ [c] ∧ isClosing c = true ∧ pairs o c = true ∧
        Nested pairs inside := by
  constructor
  · intro h
    cases h with
    | cons hc hpair hinside hrest =>
        cases hrest
        exact ⟨_, _, rfl, hc, hpair, hinside⟩
  · rintro ⟨inside, c, rfl, hc, hpair, hinside⟩
    exact .cons hc hpair hinside .nil

theorem closes_cons_iff (hd : isClosing d = false) :
    Closes pairs (o :: stack) (d :: cs) ↔
      ∃ inside c rest, cs = inside ++ c :: rest ∧ isClosing c = true ∧ pairs o c = true ∧
        Nested pairs (d :: inside) ∧ Closes pairs stack rest := by
  constructor
  · intro h
    generalize htext : d :: cs = text at h
    cases h with
    | @cons _ c _ inside rest hc hpair hinside hrest =>
        cases inside with
        | nil =>
            cases htext
            exact absurd hc (Bool.eq_false_iff.mp hd)
        | cons _ inside =>
            cases htext
            exact ⟨inside, c, rest, rfl, hc, hpair, hinside, hrest⟩
  · rintro ⟨inside, c, rest, rfl, hc, hpair, hinside, hrest⟩
    exact .cons hc hpair hinside hrest

/-- A bracket that closes. -/
theorem closes_closing_iff (hc : isClosing c = true) :
    Closes pairs (o :: stack) (c :: cs) ↔ pairs o c = true ∧ Closes pairs stack cs := by
  constructor
  · intro h
    generalize htext : c :: cs = text at h
    cases h with
    | @cons _ _ _ inside _ _ hpair hinside hrest =>
        cases inside with
        | nil =>
            cases htext
            exact ⟨hpair, hrest⟩
        | cons =>
            cases htext
            exact absurd hinside (Nested.not_closing hc)
  · rintro ⟨hpair, hrest⟩
    exact .cons hc hpair .nil hrest

/-- A bracket that opens. -/
theorem closes_opening_iff (hd : isOpening d = true) :
    Closes pairs (o :: stack) (d :: cs) ↔ Closes pairs (d :: o :: stack) cs := by
  rw [closes_cons_iff (isClosing_of_isOpening hd)]
  constructor
  · rintro ⟨inside, c, rest, rfl, hc, hpair, hinside, hrest⟩
    obtain ⟨inner, e, tail, rfl, he, hown, hinner, htail⟩ := hinside.of_opening hd
    rw [List.append_assoc]
    exact .cons he hown hinner (.cons hc hpair htail hrest)
  · intro h
    cases h with
    | @cons _ e _ inner _ he hown hinner hclosed =>
        cases hclosed with
        | @cons _ c _ tail rest hc hpair htail hrest =>
            exact ⟨inner ++ e :: tail, c, rest, by simp, hc, hpair,
              .bracketed hd he hown hinner htail, hrest⟩

theorem closes_plain_iff (hd : isPlain d = true) :
    Closes pairs (o :: stack) (d :: cs) ↔ Closes pairs (o :: stack) cs := by
  rw [closes_cons_iff (isClosing_of_isPlain hd)]
  constructor
  · rintro ⟨inside, c, rest, rfl, hc, hpair, hinside, hrest⟩
    exact .cons hc hpair (hinside.of_plain_cons hd) hrest
  · intro h
    cases h with
    | @cons _ c _ inside rest hc hpair hinside hrest =>
        exact ⟨inside, c, rest, rfl, hc, hpair, .plain hd hinside, hrest⟩

theorem closes_quote_iff :
    Closes pairs (o :: stack) ('"' :: cs) ↔ ClosesFrom pairs (o :: stack) .inside cs := by
  rw [closes_cons_iff rfl]
  constructor
  · rintro ⟨inside, c, rest, rfl, hc, hpair, hinside, hrest⟩
    obtain ⟨text, tail, rfl, htext, htail⟩ := hinside.of_quote
    exact ⟨text, tail ++ c :: rest, by simp, htext, .cons hc hpair htail hrest⟩
  · rintro ⟨text, rest, rfl, htext, h⟩
    cases h with
    | @cons _ c _ tail rest hc hpair htail hrest =>
        exact ⟨text ++ '"' :: tail, c, rest, by simp, hc, hpair, .quoted htext htail, hrest⟩

theorem closesFrom_inside_iff :
    ClosesFrom pairs stack .inside (d :: cs) ↔
      ClosesFrom pairs stack (Quoting.inside.next d) cs := by
  rw [Quoting.next]
  split
  · rename_i hescape
    cases beq_iff_eq.mp hescape
    constructor
    · rintro ⟨text, rest, heq, htext, hrest⟩
      cases htext with
      | nil => cases heq
      | plain _ hne => cases heq; exact absurd rfl hne
      | @escape c text htext => cases heq; exact ⟨c, text, rest, rfl, htext, hrest⟩
    · rintro ⟨c, text, rest, rfl, htext, hrest⟩
      exact ⟨'\\' :: c :: text, rest, rfl, .escape htext, hrest⟩
  · rename_i hescape
    split
    · rename_i hquote
      cases beq_iff_eq.mp hquote
      constructor
      · rintro ⟨text, rest, heq, htext, hrest⟩
        cases htext with
        | nil => cases heq; exact hrest
        | plain hne => cases heq; exact absurd rfl hne
        | escape => cases heq
      · exact fun hrest => ⟨[], cs, rfl, .nil, hrest⟩
    · rename_i hquote
      constructor
      · rintro ⟨text, rest, heq, htext, hrest⟩
        cases htext with
        | nil => cases heq; exact absurd rfl hquote
        | plain _ _ htext => cases heq; exact ⟨_, rest, rfl, htext, hrest⟩
        | escape => cases heq; exact absurd rfl hescape
      · rintro ⟨text, rest, rfl, htext, hrest⟩
        exact ⟨d :: text, rest, rfl,
          .plain (by simpa using hquote) (by simpa using hescape) htext, hrest⟩

/-- What is no bracket outside of quotes changes the quoting only. -/
theorem closesFrom_cons_iff {quoting : Quoting}
    (hd : quoting = .outside → isOpening d = false ∧ isClosing d = false) :
    ClosesFrom pairs (o :: stack) quoting (d :: cs) ↔
      ClosesFrom pairs (o :: stack) (quoting.next d) cs := by
  cases quoting with
  | inside => exact closesFrom_inside_iff
  | escaped =>
      constructor
      · rintro ⟨c, text, rest, heq, h⟩
        cases heq
        exact ⟨text, rest, rfl, h⟩
      · rintro ⟨text, rest, rfl, h⟩
        exact ⟨d, text, rest, rfl, h⟩
  | outside =>
      obtain ⟨hopen, hclose⟩ := hd rfl
      rw [Quoting.next]
      split
      · rename_i hquote
        cases beq_iff_eq.mp hquote
        exact closes_quote_iff
      · rename_i hquote
        exact closes_plain_iff (by simpa [isPlain, hopen, hclose] using hquote)

end

/-! ## The search for the end of a block -/

theorem map_prepend_eq_some_iff {c : Char} {split : Option (List Char × List Char)}
    {taken rest : List Char} :
    split.map (prepend c) = some (taken, rest) ↔ ∃ t, taken = c :: t ∧ split = some (t, rest) := by
  rw [Option.map_eq_some_iff]
  constructor
  · rintro ⟨⟨t, r⟩, hsplit, heq⟩
    cases heq
    exact ⟨t, rfl, hsplit⟩
  · rintro ⟨t, rfl, hsplit⟩
    exact ⟨(t, rest), hsplit, rfl⟩

/-- If the rest of a text is taken as long as `q` asks, then the text is as long as `p` does. -/
theorem map_prepend_eq_some_iff_of_step {p q : List Char → Prop} {c : Char} {cs taken rest : List Char}
    {split : Option (List Char × List Char)} (hnil : ¬ p []) (hstep : ∀ t, p (c :: t) ↔ q t)
    (h : ∀ t, split = some (t, rest) ↔ cs = t ++ rest ∧ q t) :
    split.map (prepend c) = some (taken, rest) ↔ c :: cs = taken ++ rest ∧ p taken := by
  rw [map_prepend_eq_some_iff]
  constructor
  · rintro ⟨t, rfl, hsplit⟩
    obtain ⟨rfl, ht⟩ := (h t).mp hsplit
    exact ⟨rfl, (hstep t).mpr ht⟩
  · rintro ⟨heq, htaken⟩
    cases taken with
    | nil => exact absurd htaken hnil
    | cons d t =>
        cases heq
        exact ⟨t, rfl, (h t).mpr ⟨rfl, (hstep t).mp htaken⟩⟩

theorem splitBalanced?_cons {quoting : Quoting} {c : Char}
    (hc : quoting = .outside → isOpening c = false ∧ isClosing c = false) (depth : Nat)
    (cs : List Char) :
    splitBalanced? depth quoting (c :: cs) =
      (splitBalanced? depth (quoting.next c) cs).map (prepend c) := by
  rw [splitBalanced?.eq_def]
  dsimp only
  rw [if_neg, if_neg]
  · simpa using fun h => (hc h).2
  · simpa using fun h => (hc h).1

theorem splitBalanced?_opening {c : Char} (hc : isOpening c = true) (depth : Nat)
    (cs : List Char) :
    splitBalanced? depth .outside (c :: cs) =
      (splitBalanced? (depth + 1) .outside cs).map (prepend c) := by
  rw [splitBalanced?.eq_def]
  exact if_pos (by rw [hc]; rfl)

theorem splitBalanced?_last {c : Char} (hc : isClosing c = true) (cs : List Char) :
    splitBalanced? 1 .outside (c :: cs) = some ([c], cs) := by
  rw [splitBalanced?.eq_def]
  dsimp only
  rw [if_neg (by simp [isOpening_of_isClosing hc]), if_pos (by rw [hc]; rfl)]
  rfl

theorem splitBalanced?_closing {c : Char} (hc : isClosing c = true) (depth : Nat)
    (cs : List Char) :
    splitBalanced? (depth + 2) .outside (c :: cs) =
      (splitBalanced? (depth + 1) .outside cs).map (prepend c) := by
  rw [splitBalanced?.eq_def]
  dsimp only
  rw [if_neg (by simp [isOpening_of_isClosing hc]), if_pos (by rw [hc]; rfl)]
  rfl

theorem bracket_cases (quoting : Quoting) (c : Char) :
    (quoting = .outside → isOpening c = false ∧ isClosing c = false) ∨
      (quoting = .outside ∧ isOpening c = true) ∨ (quoting = .outside ∧ isClosing c = true) := by
  by_cases hquoting : quoting = .outside
  · cases hopen : isOpening c with
    | true => exact .inr (.inl ⟨hquoting, rfl⟩)
    | false =>
        cases hclose : isClosing c with
        | true => exact .inr (.inr ⟨hquoting, rfl⟩)
        | false => exact .inl fun _ => ⟨rfl, rfl⟩
  · exact .inl fun h => absurd h hquoting

theorem not_closesFrom_nil {pairs : Char → Char → Bool} {o : Char} {stack : List Char} :
    ∀ quoting, ¬ ClosesFrom pairs (o :: stack) quoting []
  | .outside => by
      intro h
      generalize htext : [] = text at h
      cases h with
      | cons => exact List.cons_ne_nil _ _ (List.append_eq_nil_iff.mp htext.symm).2
  | .inside => fun ⟨_, _, htext, _⟩ => List.cons_ne_nil _ _ (List.append_eq_nil_iff.mp htext.symm).2
  | .escaped => fun ⟨_, _, _, htext, _⟩ => nomatch htext

/-- The search takes exactly what closes all open brackets, of whatever kind. -/
theorem splitBalanced?_eq_some_iff {o : Char} {stack : List Char} {quoting : Quoting}
    {cs taken rest : List Char} :
    splitBalanced? (o :: stack).length quoting cs = some (taken, rest) ↔
      cs = taken ++ rest ∧ ClosesFrom anyKind (o :: stack) quoting taken := by
  induction cs generalizing o stack quoting taken with
  | nil =>
      refine iff_of_false (fun h => by cases h) ?_
      rintro ⟨heq, hclosed⟩
      rw [(List.append_eq_nil_iff.mp heq.symm).1] at hclosed
      exact not_closesFrom_nil quoting hclosed
  | cons c cs ih =>
      have hnil : ¬ ClosesFrom anyKind (o :: stack) quoting [] := not_closesFrom_nil quoting
      -- Only a bracket that closes the last open one ends the search; all else is passed.
      rcases bracket_cases quoting c with hplain | ⟨rfl, hopen⟩ | ⟨rfl, hclose⟩
      · rw [splitBalanced?_cons hplain]
        exact map_prepend_eq_some_iff_of_step hnil (fun _ => closesFrom_cons_iff hplain) fun _ => ih
      · rw [splitBalanced?_opening hopen]
        exact map_prepend_eq_some_iff_of_step hnil (fun _ => closes_opening_iff hopen) fun _ => ih
      · cases stack with
        | cons o' stack =>
            have hclosed : ∀ t, Closes anyKind (o :: o' :: stack) (c :: t) ↔
                Closes anyKind (o' :: stack) t := fun _ =>
              (closes_closing_iff hclose).trans (and_iff_right rfl)
            rw [List.length_cons, List.length_cons, splitBalanced?_closing hclose]
            exact map_prepend_eq_some_iff_of_step hnil hclosed fun _ => ih
        | nil =>
            rw [List.length_singleton, splitBalanced?_last hclose]
            constructor
            · intro h
              cases h
              exact ⟨rfl, .cons hclose rfl .nil .nil⟩
            · rintro ⟨heq, htaken⟩
              cases taken with
              | nil => exact absurd htaken (not_closesFrom_nil .outside)
              | cons d t =>
                  cases heq
                  cases ((closes_closing_iff hclose).mp htaken).2
                  rfl

/-- Behind one open bracket it takes what is nested in it and the bracket that closes it. -/
theorem splitBalanced?_one_iff {cs taken rest : List Char} :
    splitBalanced? 1 .outside cs = some (taken, rest) ↔
      ∃ inside c, taken = inside ++ [c] ∧ cs = inside ++ c :: rest ∧ isClosing c = true ∧
        Nested anyKind inside := by
  have hstack : splitBalanced? 1 .outside cs = splitBalanced? ['{'].length .outside cs := rfl
  rw [hstack, splitBalanced?_eq_some_iff]
  constructor
  · rintro ⟨rfl, hclosed⟩
    obtain ⟨inside, c, rfl, hc, -, hinside⟩ := closes_singleton_iff.mp hclosed
    exact ⟨inside, c, rfl, List.append_assoc _ _ _, hc, hinside⟩
  · rintro ⟨inside, c, rfl, rfl, hc, hinside⟩
    have hcs : inside ++ c :: rest = inside ++ [c] ++ rest := (List.append_assoc inside [c] rest).symm
    exact ⟨hcs, closes_singleton_iff.mpr ⟨inside, c, rfl, hc, rfl, hinside⟩⟩

/-- A block is what stands between a brace and the bracket, of whatever kind, that balances it. -/
theorem takeBraced?_eq_some_iff {text inside rest : List Char} :
    takeBraced? text = some (inside, rest) ↔
      ∃ c, text = '{' :: (inside ++ c :: rest) ∧ isClosing c = true ∧ Nested anyKind inside := by
  constructor
  · intro h
    unfold takeBraced? at h
    split at h
    · obtain ⟨⟨taken, r⟩, hsplit, hpair⟩ := Option.map_eq_some_iff.mp h
      obtain ⟨block, c, rfl, rfl, hc, hblock⟩ := splitBalanced?_one_iff.mp hsplit
      dsimp only at hpair
      rw [List.dropLast_concat] at hpair
      cases hpair
      exact ⟨c, rfl, hc, hblock⟩
    · cases h
  · rintro ⟨c, rfl, hc, hinside⟩
    have hsplit : splitBalanced? 1 .outside (inside ++ c :: rest) = some (inside ++ [c], rest) :=
      splitBalanced?_one_iff.mpr ⟨inside, c, rfl, rfl, hc, hinside⟩
    refine Option.map_eq_some_iff.mpr ⟨(inside ++ [c], rest), hsplit, ?_⟩
    dsimp only
    rw [List.dropLast_concat]

theorem takeBraced?_of_nested {block : List Char} (h : Nested anyKind block) (rest : List Char) :
    takeBraced? ('{' :: (block ++ '}' :: rest)) = some (block, rest) :=
  takeBraced?_eq_some_iff.mpr ⟨'}', rfl, rfl, h⟩

/-- A collection that stands at the start of a text is taken as a whole. -/
theorem takeLiteral?_of_nested {o c : Char} {inside : List Char} (ho : isOpening o = true)
    (hc : isClosing c = true) (h : Nested anyKind inside) (rest : List Char) :
    takeLiteral? (o :: (inside ++ [c]) ++ rest) = some (o :: (inside ++ [c]), rest) := by
  have hquote : (o == '"' || o == '\'') = false := by
    rcases (Bool.or_eq_true _ _).mp ho with h | h <;> rw [beq_iff_eq.mp h] <;> rfl
  have hsplit : splitBalanced? 1 .outside (inside ++ [c] ++ rest) = some (inside ++ [c], rest) :=
    splitBalanced?_one_iff.mpr ⟨inside, c, rfl, List.append_assoc _ _ _, hc, h⟩
  rw [List.cons_append, takeLiteral?, hquote, if_neg Bool.false_ne_true, if_pos ho,
    splitBalanced?_opening ho]
  exact congrArg (Option.map (prepend o)) hsplit

/-! ## Brackets of two kinds -/

/-- Up to the one that closes the last open bracket, each closing bracket outside of quotes is of
the kind of the bracket it closes. -/
def closesInOrder (stack : List Char) (quoting : Quoting) : List Char → Bool
  | [] => false
  | c :: cs =>
    if quoting = .outside && isOpening c then closesInOrder (c :: stack) .outside cs
    else if quoting = .outside && isClosing c then
      match stack with
      | [] => false
      | o :: stack => ownKind o c && (stack.isEmpty || closesInOrder stack .outside cs)
    else closesInOrder stack (quoting.next c) cs

section

variable {quoting : Quoting} {o c : Char} {stack cs : List Char}

theorem closesInOrder_cons (hc : quoting = .outside → isOpening c = false ∧ isClosing c = false) :
    closesInOrder stack quoting (c :: cs) = closesInOrder stack (quoting.next c) cs := by
  rw [closesInOrder.eq_def]
  dsimp only
  rw [if_neg, if_neg]
  · simpa using fun h => (hc h).2
  · simpa using fun h => (hc h).1

theorem closesInOrder_opening (hc : isOpening c = true) :
    closesInOrder stack .outside (c :: cs) = closesInOrder (c :: stack) .outside cs := by
  rw [closesInOrder.eq_def]
  exact if_pos (by rw [hc]; rfl)

theorem closesInOrder_closing (hc : isClosing c = true) :
    closesInOrder (o :: stack) .outside (c :: cs) =
      (ownKind o c && (stack.isEmpty || closesInOrder stack .outside cs)) := by
  rw [closesInOrder.eq_def]
  dsimp only
  rw [if_neg (by simp [isOpening_of_isClosing hc]), if_pos (by rw [hc]; rfl)]

/-- On a text that closes all open brackets the condition says that the kinds agree. -/
theorem closesInOrder_iff {taken rest : List Char}
    (h : splitBalanced? (o :: stack).length quoting cs = some (taken, rest)) :
    closesInOrder (o :: stack) quoting cs = true ↔
      ClosesFrom ownKind (o :: stack) quoting taken := by
  induction cs generalizing o stack quoting taken with
  | nil => cases h
  | cons c cs ih =>
      rcases bracket_cases quoting c with hplain | ⟨rfl, hopen⟩ | ⟨rfl, hclose⟩
      · rw [splitBalanced?_cons hplain] at h
        obtain ⟨t, rfl, ht⟩ := map_prepend_eq_some_iff.mp h
        rw [closesInOrder_cons hplain, ih ht, closesFrom_cons_iff hplain]
      · rw [splitBalanced?_opening hopen] at h
        obtain ⟨t, rfl, ht⟩ := map_prepend_eq_some_iff.mp h
        rw [closesInOrder_opening hopen]
        exact (ih ht).trans (closes_opening_iff hopen).symm
      · have hclosed : ∀ t, ClosesFrom ownKind (o :: stack) .outside (c :: t) ↔
            ownKind o c = true ∧ Closes ownKind stack t := fun _ => closes_closing_iff hclose
        rw [closesInOrder_closing hclose, Bool.and_eq_true]
        cases stack with
        | nil =>
            cases (splitBalanced?_last hclose cs).symm.trans h
            exact (and_congr_right' (iff_of_true rfl .nil)).trans (hclosed []).symm
        | cons o' stack =>
            obtain ⟨t, rfl, ht⟩ := map_prepend_eq_some_iff.mp
              ((splitBalanced?_closing hclose stack.length cs).symm.trans h)
            exact (and_congr_right' (ih ht)).trans (hclosed t).symm

end

/-- The inside of the block is nested, each bracket closed by one of its kind, and no shorter text
behind the same brace is a block as well. -/
structure IsMatched (text inside rest : List Char) : Prop where
  text_eq : text = '{' :: (inside ++ '}' :: rest)
  nested : Nested ownKind inside
  shortest : ∀ before after, text = '{' :: (before ++ '}' :: after) → Nested ownKind before →
    inside.length ≤ before.length

theorem Nested.anyKind {pairs : Char → Char → Bool} {cs : List Char} (h : Nested pairs cs) :
    Nested anyKind cs := by
  induction h with
  | nil => exact .nil
  | plain hc _ ih => exact .plain hc ih
  | quoted htext _ ih => exact .quoted htext ih
  | bracketed ho hc _ _ _ ihinside ih => exact .bracketed ho hc rfl ihinside ih

/-- A block ends at the first bracket that balances its brace.  It is matched if and only if no
bracket in it is closed by one of the other kind. -/
theorem takeBraced?_isMatched_iff {text inside rest : List Char}
    (h : takeBraced? text = some (inside, rest)) :
    (∃ c, text = '{' :: (inside ++ c :: rest) ∧ isClosing c = true ∧ Nested anyKind inside) ∧
      (IsMatched text inside rest ↔ closesInOrder [] .outside text = true) := by
  obtain ⟨c, htext, hc, hinside⟩ := takeBraced?_eq_some_iff.mp h
  refine ⟨⟨c, htext, hc, hinside⟩, ?_⟩
  have hunique : ∀ before after, text = '{' :: (before ++ '}' :: after) →
      Nested ownKind before → inside.length ≤ before.length := by
    intro before after heq hbefore
    have hfound := takeBraced?_eq_some_iff.mpr ⟨'}', heq, rfl, hbefore.anyKind⟩
    cases h.symm.trans hfound
    exact Nat.le_refl _
  have hsplit : splitBalanced? ['{'].length .outside (inside ++ c :: rest) =
      some (inside ++ [c], rest) :=
    splitBalanced?_one_iff.mpr ⟨inside, c, rfl, rfl, hc, hinside⟩
  have hclosed : closesInOrder [] .outside text = true ↔ c = '}' ∧ Nested ownKind inside := by
    rw [htext, closesInOrder_opening rfl, closesInOrder_iff hsplit]
    refine closes_singleton_iff.trans ⟨?_, ?_⟩
    · rintro ⟨i, d, heq, -, hown, hi⟩
      obtain ⟨rfl, hd⟩ := List.append_inj' heq rfl
      cases hd
      exact ⟨by simpa [ownKind] using hown, hi⟩
    · rintro ⟨rfl, hi⟩
      exact ⟨inside, '}', rfl, rfl, rfl, hi⟩
  rw [hclosed]
  constructor
  · rintro ⟨heq, hnested, -⟩
    have hbrace := (List.append_right_inj _).mp (List.cons.inj (htext.symm.trans heq)).2
    exact ⟨(List.cons.inj hbrace).1, hnested⟩
  · rintro ⟨rfl, hnested⟩
    exact ⟨htext, hnested, hunique⟩

/-- A default of objects in an array, with a brace in a string. -/
theorem isMatched_collection_default :
    takeBraced? "\x7b[]gpu default=[\x7b\"name\":\"x\x7d\"\x7d]\x7d desc".toList =
        some ("[]gpu default=[\x7b\"name\":\"x\x7d\"\x7d]".toList, " desc".toList) ∧
      IsMatched "\x7b[]gpu default=[\x7b\"name\":\"x\x7d\"\x7d]\x7d desc".toList
        "[]gpu default=[\x7b\"name\":\"x\x7d\"\x7d]".toList " desc".toList :=
  have hfound : takeBraced? "\x7b[]gpu default=[\x7b\"name\":\"x\x7d\"\x7d]\x7d desc".toList =
      some ("[]gpu default=[\x7b\"name\":\"x\x7d\"\x7d]".toList, " desc".toList) := by decide +kernel
  ⟨hfound, (takeBraced?_isMatched_iff hfound).2.mpr (by decide +kernel)⟩

/-- A square bracket ends a block that a brace begins, and a brace ends an array inside of it. -/
theorem not_isMatched_other_kind :
    takeBraced? "\x7bint] x".toList = some ("int".toList, " x".toList) ∧
      ¬ IsMatched "\x7bint] x".toList "int".toList " x".toList ∧
      takeBraced? "\x7b[\x7d\x7d".toList = some ("[\x7d".toList, []) ∧
      ¬ IsMatched "\x7b[\x7d\x7d".toList "[\x7d".toList [] := by
  refine ⟨by decide +kernel, fun h => absurd h.text_eq (by decide), by decide +kernel, fun h => ?_⟩
  obtain ⟨inside, c, rest, heq, -, hown, -⟩ := Nested.of_opening rfl h.nested
  cases inside with
  | nil => cases heq; cases hown
  | cons d inside =>
      obtain ⟨-, hnil⟩ := List.append_eq_nil_iff.mp (List.cons.inj heq).2.symm
      cases hnil

end AnnotatedValues.Annotation
