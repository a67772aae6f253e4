import AnnotatedValues.Proofs.Annotation.Attachment

/-!
# Lines that add nothing

A line that adds no row, value, section or complaint is no different from an
empty line, with one exception.  A field with a name of too many or empty parts
adds nothing, but closes an enumeration as all fields do, and so the values that
follow it get lost.
-/

namespace AnnotatedValues.Annotation.Scan

open Text

variable {s : State} {n : Nat} {directive : Directive}

/-! ## One line -/

/-- The state without anything open. -/
def State.closed (s : State) : State := { s with opened := .nothing }

/-- A directive that adds nothing has no effect, unless it is a field that closes an enumeration. -/
theorem apply_of_skipped (h : (apply s n directive).scan = s.scan) :
    apply s n directive = s ∨
      s.opened = .enum ∧ (∃ m, directive = .field m) ∧ apply s n directive = s.closed := by
  have hrow : ∀ row, s.scan.rows ++ [row] ≠ s.scan.rows := fun row heq => by simp at heq
  cases directive with
  | «section» title =>
      have hsections : s.scan.sections ++ [⟨String.ofList title, []⟩] = s.scan.sections :=
        congrArg Scan.sections h
      simp at hsections
  | typedef name description => exact absurd (congrArg Scan.rows h) (hrow _)
  | enum base name description => exact absurd (congrArg Scan.rows h) (hrow _)
  | param m => exact absurd (congrArg Scan.rows h) (hrow _)
  | value token =>
      rw [apply_value] at h ⊢
      exact Or.inl (congrArg (fun scan => State.mk scan s.opened) h)
  | field m =>
      rw [apply_field] at h ⊢
      dsimp only at h
      rw [h]
      by_cases hopened : s.opened = .enum
      · rw [if_pos hopened]
        exact Or.inr ⟨hopened, ⟨m, rfl⟩, rfl⟩
      · rw [if_neg hopened]
        exact Or.inl rfl

theorem step_of_skipped {line : List Char} (h : (step s n line).scan = s.scan) :
    step s n line = s ∨
      s.opened = .enum ∧ (∃ m, Directive.ofLine? line = some (.field m)) ∧
        step s n line = s.closed := by
  unfold step at h ⊢
  cases hline : Directive.ofLine? line with
  | none => exact Or.inl rfl
  | some directive =>
      rw [hline] at h
      rcases apply_of_skipped h with hsame | ⟨hopened, ⟨m, rfl⟩, hclosed⟩
      · exact Or.inl hsame
      · exact Or.inr ⟨hopened, ⟨m, rfl⟩, hclosed⟩

/-! ## The lines behind it -/

/-- Whether an enumeration is open matters to values only. -/
theorem apply_closed (hopened : s.opened = .enum) (hvalue : directive.isValue = false) :
    apply s.closed n directive = apply s n directive := by
  cases directive with
  | «section» _ | typedef _ _ | enum _ _ _ | param _ => rfl
  | value token => cases hvalue
  | field m =>
      rw [apply_field, apply_field, hopened]
      rfl

/-- Lines with a first directive that is no value are scanned alike whether an enumeration is open
or not. -/
theorem run_closed {texts : List (List Char)} (hopened : s.opened = .enum)
    (hfirst : ∀ token, texts.findSome? Directive.ofLine? ≠ some (.value token)) (line : Nat) :
    (run s.closed line texts).scan = (run s line texts).scan := by
  induction texts generalizing line with
  | nil => rfl
  | cons text texts ih =>
      rw [List.findSome?_cons] at hfirst
      rw [run, run, step, step]
      cases hdirective : Directive.ofLine? text with
      | none =>
          rw [hdirective] at hfirst
          exact ih hfirst (line + 1)
      | some directive =>
          rw [hdirective] at hfirst
          have hvalue : directive.isValue = false := by
            rw [Bool.eq_false_iff]
            intro hvalue
            obtain ⟨token, rfl⟩ := Directive.exists_eq_value hvalue
            exact hfirst token rfl
          dsimp only
          rw [apply_closed hopened hvalue]

/-! ## Lost values -/

theorem head?_directives (line : Nat) (texts : List (List Char)) :
    (directives line texts).head?.map Prod.snd = texts.findSome? Directive.ofLine? := by
  induction texts generalizing line with
  | nil => rfl
  | cons text texts ih =>
      rw [List.findSome?_cons]
      cases h : Directive.ofLine? text with
      | none => rw [directives_cons_of_none h, ih]
      | some directive => rw [directives_cons_of_some h]; rfl

/-- An enumeration that is closed gets no more values. -/
theorem tokens_of_closed {line : Nat} {past ds : List Numbered} (hclosed : enumLine? past ≠ some line)
    (h : ∀ d ∈ ds, d.1 ≠ line) : tokens line past ds = [] := by
  induction ds generalizing past with
  | nil => rfl
  | cons d ds ih =>
      rw [List.forall_mem_cons] at h
      rw [tokens, tokenOf_of_ne hclosed, List.nil_append]
      refine ih ?_ h.2
      obtain ⟨n, directive⟩ := d
      rw [enumLine?_concat]
      cases directive with
      | enum base name description => exact fun heq => h.1 (Option.some.inj heq)
      | value token => exact hclosed
      | «section» _ | typedef _ _ | param _ | field _ =>
          intro heq
          cases heq

section

variable {text blanked : List Char} {before after : List (List Char)} {line : List Char}

/-- Behind the same lines, scans that agree give the same tokens to the enumeration that is open
there. -/
theorem tokens_eq_of_ofText_eq {number : Nat} {past : List Numbered}
    (henum : enumLine? past = some number) (h : past <+: directives 1 (lines text))
    (h' : past <+: directives 1 (lines blanked)) (heq : ofText blanked = ofText text) :
    tokens number [] (directives 1 (lines blanked)) =
      tokens number [] (directives 1 (lines text)) := by
  obtain ⟨base, name, description, hmem⟩ := exists_enum_of_enumLine? henum
  obtain ⟨earlier, hpast⟩ := Tracks.exists_concat_of_mem hmem
  have hrow := (tracks_run (lines text)).rows (hpast.trans h)
  have hrow' := (tracks_run (lines blanked)).rows (hpast.trans h')
  change rowsAt number (ofText text) = [enumRow _ _ _ _ _] at hrow
  change rowsAt number (ofText blanked) = [enumRow _ _ _ _ _] at hrow'
  rw [heq, hrow, List.singleton_inj] at hrow'
  exact (congrArg Row.choices hrow').symm

/-- An enumeration is open at the line, which is a field, and the first directive behind it is a
value. -/
def LosesValue (before : List (List Char)) (line : List Char) (after : List (List Char)) : Prop :=
  (∃ number, enumLine? (directives 1 before) = some number) ∧
    (∃ m, Directive.ofLine? line = some (.field m)) ∧
      ∃ token, after.findSome? Directive.ofLine? = some (.value token)

/-- A value that gets lost is missing in the scan. -/
theorem LosesValue.ofText_ne (hloses : LosesValue before line after)
    (h : lines text = before ++ line :: after) (hblanked : lines blanked = before ++ [] :: after) :
    ofText blanked ≠ ofText text := by
  obtain ⟨⟨number, henum⟩, ⟨m, hfield⟩, token, hvalue⟩ := hloses
  obtain ⟨base, name, description, hmem⟩ := exists_enum_of_enumLine? henum
  have hnumber : number < 1 + before.length := lt_of_mem_directives hmem
  have hblank : Directive.ofLine? [] = none := rfl
  rw [← head?_directives (1 + before.length + 1), Option.map_eq_some_iff] at hvalue
  obtain ⟨⟨k, _⟩, hhead, rfl⟩ := hvalue
  obtain ⟨later, hlater⟩ := List.head?_eq_some_iff.mp hhead
  have htext : directives 1 (lines text) = directives 1 before ++
      (1 + before.length, .field m) :: directives (1 + before.length + 1) after := by
    rw [h, directives_append, directives_cons_of_some hfield]
  have hempty : directives 1 (lines blanked) = directives 1 before ++
      directives (1 + before.length + 1) after := by
    rw [hblanked, directives_append, directives_cons_of_none hblank]
  intro heq
  have htokens := tokens_eq_of_ofText_eq henum (htext ▸ List.prefix_append _ _)
    (hempty ▸ List.prefix_append _ _) heq
  have hclosed : enumLine? (directives 1 before ++ [(1 + before.length, .field m)]) ≠ some number := by
    rw [enumLine?_concat]
    exact nofun
  have hnone : tokens number (directives 1 before ++ [(1 + before.length, .field m)])
      (directives (1 + before.length + 1) after) = [] :=
    tokens_of_closed hclosed fun d hd =>
      Nat.ne_of_gt (hnumber.trans (Nat.lt_of_succ_le (le_of_mem_directives hd)))
  have hfieldTokens : tokenOf number (directives 1 before) (.field m) = [] := rfl
  rw [htext, hempty, tokens_append, tokens_append, List.nil_append, tokens, hfieldTokens, hnone,
    hlater, tokens, tokenOf, if_pos henum] at htokens
  simp at htokens

/-- A line that adds nothing is no different from an empty line exactly if it makes no value get
lost. -/
theorem ofText_blanked_eq_iff (h : lines text = before ++ line :: after)
    (hblanked : lines blanked = before ++ [] :: after)
    (hskipped : (run empty 1 (before ++ [line])).scan = (run empty 1 before).scan) :
    ofText blanked = ofText text ↔ ¬ LosesValue before line after := by
  refine ⟨fun heq hloses => hloses.ofText_ne h hblanked heq, fun hkept => ?_⟩
  have htext : ofText text =
      (run (step (run empty 1 before) (1 + before.length) line) (1 + before.length + 1) after).scan := by
    rw [ofText, h, run_append, run]
  have hempty : ofText blanked = (run (run empty 1 before) (1 + before.length + 1) after).scan := by
    rw [ofText, hblanked, run_append, run]
    rfl
  rw [run_append, run, run] at hskipped
  rw [htext, hempty]
  rcases step_of_skipped hskipped with hsame | ⟨hopened, hfield, hclosed⟩
  · rw [hsame]
  · have henum := Option.isSome_iff_exists.mp ((tracks_run before).enum.mp hopened)
    rw [hclosed, run_closed hopened fun token hvalue => hkept ⟨henum, hfield, token, hvalue⟩]

/-- A field of too many parts in an enumeration, and a title behind it. -/
def titledText : List Char :=
  "## @enum {string} Tier\n## @field {int} a.b.c\n## @section Size\n## @value small".toList

def titledBlanked : List Char := "## @enum {string} Tier\n\n## @section Size\n## @value small".toList

theorem ofText_titledBlanked : ofText titledBlanked = ofText titledText := by
  have hlines : lines titledText = ["## @enum {string} Tier".toList] ++
      "## @field {int} a.b.c".toList :: ["## @section Size".toList, "## @value small".toList] := by
    unfold titledText
    repeat rw [String.toList_ofList]
    rfl
  have hblanked : lines titledBlanked = ["## @enum {string} Tier".toList] ++
      [] :: ["## @section Size".toList, "## @value small".toList] := by
    unfold titledBlanked
    repeat rw [String.toList_ofList]
    rfl
  refine (ofText_blanked_eq_iff hlines hblanked (by decide)).mpr ?_
  rintro ⟨-, -, token, hvalue⟩
  have hsection : ["## @section Size".toList, "## @value small".toList].findSome?
      Directive.ofLine? = some (.section "Size".toList) := by decide
  rw [hsection] at hvalue
  cases hvalue

/-- A field of too many parts between an enumeration and its value. -/
def interruptedText : List Char :=
  "## @enum {string} Tier\n## @field {int} a.b.c\n## @value small".toList

def interruptedBlanked : List Char := "## @enum {string} Tier\n\n## @value small".toList

theorem ofText_interruptedBlanked_ne :
    lines interruptedText = ["## @enum {string} Tier".toList] ++
        "## @field {int} a.b.c".toList :: ["## @value small".toList] ∧
      lines interruptedBlanked = ["## @enum {string} Tier".toList] ++
          [] :: ["## @value small".toList] ∧
        (run empty 1 (["## @enum {string} Tier".toList] ++ ["## @field {int} a.b.c".toList])).scan =
            (run empty 1 ["## @enum {string} Tier".toList]).scan ∧
          ofText interruptedBlanked ≠ ofText interruptedText := by
  unfold interruptedText interruptedBlanked
  -- Characters of a literal are cheaper to compare than its bytes.
  repeat rw [String.toList_ofList]
  decide

end

end AnnotatedValues.Annotation.Scan
