import AnnotatedValues.Proofs.Annotation.Directives
import AnnotatedValues.Proofs.Annotation.Scan
import AnnotatedValues.Proofs.Text.Lines
import Mathlib.Data.List.Nodup

/-!
# What fields and values belong to

A field without a parent in its name belongs to the type whose declaration is
the last that opens or closes anything; a value belongs to the enumeration that
is the last line with a directive, other values apart.  What each line adds to a
scan is decided by the lines before it, and only an enumeration still changes,
by the values that follow it.
-/

namespace AnnotatedValues.Annotation

open Text

namespace Directive

/-- Whether the directive decides which type the fields behind it belong to. -/
def isOpening : Directive → Bool
  | .section _ | .typedef _ _ | .enum _ _ _ | .param _ => true
  | .value _ | .field _ => false

def isValue : Directive → Bool
  | .value _ => true
  | _ => false

theorem exists_eq_value {directive : Directive} (h : directive.isValue = true) :
    ∃ token, directive = .value token := by
  cases directive with
  | value token => exact ⟨token, rfl⟩
  | «section» _ | typedef _ _ | enum _ _ _ | param _ | field _ => cases h

end Directive

/-- The type that is open for fields. -/
def Open.typedef? : Open → Option String
  | .typedef name => some name
  | _ => none

namespace Scan

/-! ## The lines before -/

variable {past : List Numbered} {n : Nat} {directive : Directive}

/-- The last of the directives that `p` holds of. -/
def last? (p : Directive → Bool) (past : List Numbered) : Option Numbered :=
  (past.filter fun d => p d.2).getLast?

/-- The type that a field belongs to. -/
def parent? (past : List Numbered) : Option String :=
  match last? Directive.isOpening past with
  | some (_, .typedef name _) => some (String.ofList name)
  | _ => none

/-- The line of the enumeration that a value belongs to. -/
def enumLine? (past : List Numbered) : Option Nat :=
  match last? (fun d => !d.isValue) past with
  | some (line, .enum _ _ _) => some line
  | _ => none

/-- The token that a directive gives to the enumeration of the line. -/
def tokenOf (line : Nat) (past : List Numbered) : Directive → List String
  | .value token => if enumLine? past = some line then [String.ofList token] else []
  | _ => []

/-- The tokens of the values behind `past` that belong to the enumeration of the line. -/
def tokens (line : Nat) (past : List Numbered) : List Numbered → List String
  | [] => []
  | d :: ds => tokenOf line past d.2 ++ tokens line (past ++ [d]) ds

theorem last?_concat (p : Directive → Bool) (past : List Numbered) (d : Numbered) :
    last? p (past ++ [d]) = if p d.2 then some d else last? p past := by
  rw [last?, List.filter_append]
  cases hd : p d.2 with
  | true => simp [hd]
  | false => simp [hd, last?]

theorem parent?_concat (past : List Numbered) (n : Nat) (directive : Directive) :
    parent? (past ++ [(n, directive)]) =
      match directive with
      | .typedef name _ => some (String.ofList name)
      | .section _ | .enum _ _ _ | .param _ => none
      | .value _ | .field _ => parent? past := by
  rw [parent?, last?_concat]
  cases directive <;> rfl

theorem enumLine?_concat (past : List Numbered) (n : Nat) (directive : Directive) :
    enumLine? (past ++ [(n, directive)]) =
      match directive with
      | .enum _ _ _ => some n
      | .value _ => enumLine? past
      | _ => none := by
  rw [enumLine?, last?_concat]
  cases directive <;> rfl

theorem mem_of_last? {p : Directive → Bool} {d : Numbered} (h : last? p past = some d) :
    d ∈ past := List.mem_of_mem_filter (List.mem_of_getLast? h)

theorem exists_enum_of_enumLine? (h : enumLine? past = some n) :
    ∃ base name description, (n, Directive.enum base name description) ∈ past := by
  unfold enumLine? at h
  split at h
  · rename_i hlast
    cases h
    exact ⟨_, _, _, mem_of_last? hlast⟩
  · cases h

theorem tokens_append (line : Nat) (past ds later : List Numbered) :
    tokens line past (ds ++ later) = tokens line past ds ++ tokens line (past ++ ds) later := by
  induction ds generalizing past with
  | nil => rw [List.append_nil]; rfl
  | cons d ds ih =>
      rw [List.cons_append, tokens, tokens, ih, List.append_assoc, List.append_assoc]
      rfl

theorem tokens_concat (line : Nat) (past ds : List Numbered) (d : Numbered) :
    tokens line past (ds ++ [d]) = tokens line past ds ++ tokenOf line (past ++ ds) d.2 := by
  rw [tokens_append, tokens, tokens, List.append_nil]

theorem tokenOf_of_ne {line : Nat} (h : enumLine? past ≠ some line) (directive : Directive) :
    tokenOf line past directive = [] := by
  cases directive with
  | value token => exact if_neg h
  | «section» _ | typedef _ _ | enum _ _ _ | param _ | field _ => rfl

theorem tokenOf_of_not_value (h : directive.isValue = false) (line : Nat) (past : List Numbered) :
    tokenOf line past directive = [] := by
  cases directive with
  | value token => cases h
  | «section» _ | typedef _ _ | enum _ _ _ | param _ | field _ => rfl

/-- No values belong to a line before it. -/
theorem tokens_eq_nil {line : Nat} {ds : List Numbered} (h : ∀ d ∈ past ++ ds, d.1 ≠ line) :
    tokens line past ds = [] := by
  induction ds generalizing past with
  | nil => rfl
  | cons e ds ih =>
      have hnone : enumLine? past ≠ some line := by
        intro hline
        obtain ⟨_, _, _, hmem⟩ := exists_enum_of_enumLine? hline
        exact h _ (List.mem_append_left _ hmem) rfl
      rw [tokens, tokenOf_of_ne hnone, List.nil_append]
      refine ih fun d hd => h d ?_
      rwa [List.append_assoc] at hd

/-! ## What a line adds -/

/-- The row of a field, if it has one. -/
def fieldRow? (parent? : Option String) (n : Nat) (m : Member) : Option Row :=
  match splitBy isSeparator m.name with
  | [parent, field] =>
    if parent.isEmpty || field.isEmpty then none
    else some (memberRow n .field [String.ofList parent, String.ofList field] m)
  | [_] => parent?.map fun parent => memberRow n .field [parent, String.ofList m.name] m
  | _ => none

/-- The complaint about a field that belongs to no type. -/
def orphan? (parent? : Option String) (n : Nat) (m : Member) : Option Diagnostic :=
  match splitBy isSeparator m.name, parent? with
  | [_], none => some ⟨n, orphanMessage (String.ofList m.name)⟩
  | _, _ => none

theorem isSeparator_eq_false {name : List Char} (hpoint : '.' ∉ name) (hslash : '/' ∉ name) :
    ∀ c ∈ name, isSeparator c = false := by
  intro c hc
  rw [isSeparator, Bool.or_eq_false_iff, beq_eq_false_iff_ne, beq_eq_false_iff_ne]
  exact ⟨fun heq => hpoint (heq ▸ hc), fun heq => hslash (heq ▸ hc)⟩

/-- A field without a separator in its name has a row in the type that is open. -/
theorem fieldRow?_of_plain {m : Member} (h : ∀ c ∈ m.name, isSeparator c = false)
    (parent? : Option String) (n : Nat) :
    fieldRow? parent? n m =
      parent?.map fun parent => memberRow n .field [parent, String.ofList m.name] m := by
  rw [fieldRow?, splitBy_eq_singleton h]

/-- A field without a separator in its name is complained about if no type is open. -/
theorem orphan?_of_plain {m : Member} (h : ∀ c ∈ m.name, isSeparator c = false)
    (parent? : Option String) (n : Nat) :
    orphan? parent? n m =
      if parent?.isNone then some ⟨n, orphanMessage (String.ofList m.name)⟩ else none := by
  unfold orphan?
  rw [splitBy_eq_singleton h]
  cases parent? with
  | none => rfl
  | some parent => rfl

/-- The row of an enumeration with values. -/
def enumRow (n : Nat) (name base description : List Char) (values : List String) : Row :=
  { declarationRow n .enum name base description with choices := values }

/-- The rows of a line behind `past`, of an enumeration with the values that are `tokens`. -/
def rowsOf (past : List Numbered) (tokens : List String) (n : Nat) : Directive → List Row
  | .section _ | .value _ => []
  | .typedef name description => [declarationRow n .typedef name [] description]
  | .enum base name description => [enumRow n name base description tokens]
  | .param m => [memberRow n .param [String.ofList m.name] m]
  | .field m => (fieldRow? (parent? past) n m).toList

def diagnosticsOf (past : List Numbered) (n : Nat) : Directive → List Diagnostic
  | .field m => (orphan? (parent? past) n m).toList
  | _ => []

theorem addField_eq (s : State) (n : Nat) (m : Member) :
    addField s n m =
      { s with scan := { s.scan with
          rows := s.scan.rows ++ (fieldRow? s.opened.typedef? n m).toList
          diagnostics := s.scan.diagnostics ++ (orphan? s.opened.typedef? n m).toList } } := by
  obtain ⟨scan, opened⟩ := s
  unfold addField fieldRow? orphan?
  generalize splitBy isSeparator m.name = pieces
  match pieces with
  | [] => simp
  | [_] => cases opened <;> simp [addRow, Open.typedef?]
  | [parent, field] =>
      dsimp only
      split <;> simp [addRow]
  | _ :: _ :: _ :: _ => simp

theorem line_of_fieldRow? {parent? : Option String} {m : Member} {row : Row}
    (h : fieldRow? parent? n m = some row) : row.line = n := by
  unfold fieldRow? at h
  split at h
  · split at h
    · cases h
    · exact Option.some.inj h ▸ rfl
  · obtain ⟨_, -, rfl⟩ := Option.map_eq_some_iff.mp h
    rfl
  · cases h

theorem line_of_mem_rowsOf {tokens : List String} {row : Row}
    (h : row ∈ rowsOf past tokens n directive) : row.line = n := by
  cases directive with
  | «section» title => cases h
  | value token => cases h
  | typedef name description => exact List.mem_singleton.mp h ▸ rfl
  | enum base name description => exact List.mem_singleton.mp h ▸ rfl
  | param m => exact List.mem_singleton.mp h ▸ rfl
  | field m => exact line_of_fieldRow? (Option.mem_toList.mp h)

/-- The name of a field holds no separator. -/
theorem isSeparator_of_mem_rowsOf {tokens : List String} {row : Row}
    (h : row ∈ rowsOf past tokens n directive) (hkind : row.kind = .field) {parent name : String}
    (hpath : row.path = [parent, name]) : ∀ c ∈ name.toList, isSeparator c = false := by
  cases directive with
  | «section» title => cases h
  | value token => cases h
  | typedef name description => rw [List.mem_singleton.mp h] at hkind; cases hkind
  | enum base name description => rw [List.mem_singleton.mp h] at hkind; cases hkind
  | param m => rw [List.mem_singleton.mp h] at hkind; cases hkind
  | field m =>
      have hrow := Option.mem_toList.mp h
      unfold fieldRow? at hrow
      split at hrow
      · rename_i before field hsplit
        have hfield : field ∈ splitBy isSeparator m.name := by
          rw [hsplit]
          exact List.mem_cons_of_mem before List.mem_cons_self
        split at hrow
        · cases hrow
        · cases hrow
          cases hpath
          intro c hc
          rw [String.toList_ofList] at hc
          exact (mem_of_mem_splitBy hfield hc).2
      · rename_i hsplit
        obtain ⟨_, -, rfl⟩ := Option.map_eq_some_iff.mp hrow
        cases hpath
        rw [String.toList_ofList]
        exact forall_of_splitBy_eq_singleton hsplit
      · cases hrow

theorem line_of_mem_diagnosticsOf {diagnostic : Diagnostic}
    (h : diagnostic ∈ diagnosticsOf past n directive) : diagnostic.line = n := by
  cases directive with
  | field m =>
      have horphan := Option.mem_toList.mp h
      unfold orphan? at horphan
      split at horphan
      · exact Option.some.inj horphan ▸ rfl
      · cases horphan
  | «section» _ | typedef _ _ | enum _ _ _ | value _ | param _ => cases h

/-! ## One directive -/

section Step

variable {s : State}

/-- A value changes nothing but the last row, and that only if an enumeration is open. -/
theorem apply_value (s : State) (n : Nat) (token : List Char) :
    apply s n (.value token) =
      { s with scan := { s.scan with
          rows := if s.opened = .enum then addValue (String.ofList token) s.scan.rows
            else s.scan.rows } } := by
  rw [apply]
  split <;> rfl

/-- A field closes an enumeration, but no type. -/
theorem apply_field (s : State) (n : Nat) (m : Member) :
    apply s n (.field m) =
      { scan := { s.scan with
          rows := s.scan.rows ++ (fieldRow? s.opened.typedef? n m).toList
          diagnostics := s.scan.diagnostics ++ (orphan? s.opened.typedef? n m).toList }
        opened := if s.opened = .enum then .nothing else s.opened } := by
  rw [apply, addField_eq]
  split
  · rename_i hopened
    rw [hopened]
    rfl
  · rfl

theorem typedef?_apply (h : s.opened.typedef? = parent? past) :
    (apply s n directive).opened.typedef? = parent? (past ++ [(n, directive)]) := by
  rw [parent?_concat]
  cases directive with
  | «section» title => rfl
  | typedef name description => rfl
  | enum base name description => rfl
  | param m => rfl
  | value token => rw [apply_value, h]
  | field m =>
      rw [apply_field, ← h]
      dsimp only
      split
      · rename_i hopened
        rw [hopened]
        rfl
      · rfl

theorem opened_apply_eq_enum_iff (h : s.opened = .enum ↔ (enumLine? past).isSome) :
    (apply s n directive).opened = .enum ↔ (enumLine? (past ++ [(n, directive)])).isSome := by
  rw [enumLine?_concat]
  cases directive with
  | «section» title => simp [apply]
  | typedef name description => simp [apply]
  | enum base name description => simp [apply]
  | param m => simp [apply, addRow]
  | value token => rwa [apply_value]
  | field m =>
      rw [apply_field]
      dsimp only
      split
      · simp
      · rename_i hopened
        simpa using hopened

/-- A directive other than a value adds its rows behind those of the lines before. -/
theorem rows_apply (h : s.opened.typedef? = parent? past) (hvalue : directive.isValue = false) :
    (apply s n directive).scan.rows = s.scan.rows ++ rowsOf past [] n directive := by
  cases directive with
  | «section» title => exact (List.append_nil _).symm
  | typedef name description => rfl
  | enum base name description => rfl
  | param m => rfl
  | value token => cases hvalue
  | field m => rw [apply_field, rowsOf, h]

/-- Every directive adds its complaint behind those of the lines before. -/
theorem diagnostics_apply (h : s.opened.typedef? = parent? past) :
    (apply s n directive).scan.diagnostics =
      s.scan.diagnostics ++ diagnosticsOf past n directive := by
  cases directive with
  | «section» title => exact (List.append_nil _).symm
  | typedef name description => exact (List.append_nil _).symm
  | enum base name description => exact (List.append_nil _).symm
  | param m => exact (List.append_nil _).symm
  | value token => rw [apply_value]; exact (List.append_nil _).symm
  | field m => rw [apply_field, diagnosticsOf, h]

end Step

theorem map_line_addValue (token : String) (rows : List Row) :
    (addValue token rows).map (·.line) = rows.map (·.line) := by
  rcases List.eq_nil_or_concat rows with rfl | ⟨front, row, rfl⟩
  · rfl
  · rw [List.concat_eq_append, addValue_concat, List.map_append, List.map_append]
    rfl

/-! ## All directives -/

/-- Of members of one line, that line has all and another none. -/
theorem filter_eq_ite {α : Type} {f : α → Nat} {xs : List α} {line : Nat} (h : ∀ x ∈ xs, f x = line)
    (n : Nat) : (xs.filter fun x => f x == n) = if line = n then xs else [] := by
  split
  · rename_i hn
    refine List.filter_eq_self.mpr fun x hx => ?_
    rw [h x hx, hn, beq_self_eq_true]
  · rename_i hn
    exact List.filter_eq_nil_iff.mpr fun x hx heq => hn ((h x hx).symm.trans (beq_iff_eq.mp heq))

/-- Members of lines before have no part in a new one. -/
theorem filter_eq_nil {α : Type} {f : α → Nat} {xs : List α} (h : ∀ x ∈ xs, ∃ d ∈ past, d.1 = f x)
    (hnew : ∀ d ∈ past, d.1 ≠ n) : (xs.filter fun x => f x == n) = [] := by
  refine List.filter_eq_nil_iff.mpr fun x hx heq => ?_
  obtain ⟨d, hd, hline⟩ := h x hx
  exact hnew d hd (hline.trans (beq_iff_eq.mp heq))

def rowsAt (n : Nat) (scan : Scan) : List Row := scan.rows.filter fun row => row.line == n

def diagnosticsAt (n : Nat) (scan : Scan) : List Diagnostic :=
  scan.diagnostics.filter fun diagnostic => diagnostic.line == n

/-- What a state is behind directives: a line has added what the lines before it decide, and an
enumeration has been given the values that belong to it. -/
structure Tracks (past : List Numbered) (s : State) : Prop where
  numbers : (past.map Prod.fst).Nodup
  parent : s.opened.typedef? = parent? past
  enum : s.opened = .enum ↔ (enumLine? past).isSome
  last : ∀ line, enumLine? past = some line →
    ∃ rows row, s.scan.rows = rows ++ [row] ∧ row.line = line
  known : ∀ row ∈ s.scan.rows, ∃ d ∈ past, d.1 = row.line
  rows : ∀ {before d}, before ++ [d] <+: past →
    rowsAt d.1 s.scan = rowsOf before (tokens d.1 [] past) d.1 d.2
  reported : ∀ diagnostic ∈ s.scan.diagnostics, ∃ d ∈ past, d.1 = diagnostic.line
  diagnostics : ∀ {before d}, before ++ [d] <+: past →
    diagnosticsAt d.1 s.scan = diagnosticsOf before d.1 d.2

namespace Tracks

variable {s : State} {new : Numbered}

theorem mem_of_concat {before : List Numbered} {d : Numbered} (h : before ++ [d] <+: past) :
    d ∈ past := h.subset (List.mem_append_right before List.mem_cons_self)

theorem exists_concat_of_mem {d : Numbered} (h : d ∈ past) : ∃ before, before ++ [d] <+: past := by
  obtain ⟨before, later, rfl⟩ := List.append_of_mem h
  exact ⟨before, later, by rw [List.append_assoc]; rfl⟩

/-- Two lines with one number are one. -/
theorem eq_of_number_eq (h : Tracks past s) {d e : Numbered} (hd : d ∈ past) (he : e ∈ past)
    (heq : d.1 = e.1) : d = e := List.inj_on_of_nodup_map h.numbers hd he heq

/-- Each row is of one of the lines. -/
theorem exists_of_mem (h : Tracks past s) {row : Row} (hrow : row ∈ s.scan.rows) :
    ∃ before d tokens, before ++ [d] <+: past ∧ row ∈ rowsOf before tokens d.1 d.2 := by
  obtain ⟨d, hd, hline⟩ := h.known row hrow
  obtain ⟨before, hpast⟩ := exists_concat_of_mem hd
  have hat : row ∈ rowsAt d.1 s.scan := List.mem_filter.mpr ⟨hrow, beq_iff_eq.mpr hline.symm⟩
  rw [h.rows hpast] at hat
  exact ⟨before, d, _, hpast, hat⟩

theorem tokens_new (hnew : ∀ d ∈ past, d.1 ≠ n) (directive : Directive) :
    tokens n [] (past ++ [(n, directive)]) = [] := by
  have hline : enumLine? past ≠ some n := by
    intro hline
    obtain ⟨_, _, _, hmem⟩ := exists_enum_of_enumLine? hline
    exact hnew _ hmem rfl
  rw [tokens_concat, tokens_eq_nil (by simpa using hnew), List.nil_append]
  exact tokenOf_of_ne hline directive

/-- The enumeration that is open is the last row. -/
theorem exists_enum_row (h : Tracks past s) {line : Nat} (hline : enumLine? past = some line) :
    ∃ rows base name description, (line, Directive.enum base name description) ∈ past ∧
      s.scan.rows = rows ++ [enumRow line name base description (tokens line [] past)] ∧
        rows.filter (fun row => row.line == line) = [] := by
  obtain ⟨base, name, description, hmem⟩ := exists_enum_of_enumLine? hline
  obtain ⟨before, hpast⟩ := exists_concat_of_mem hmem
  obtain ⟨rows, row, hrows, hrow⟩ := h.last line hline
  have hat := h.rows hpast
  rw [rowsAt, hrows, List.filter_append] at hat
  have hkept : [row].filter (fun row => row.line == line) = [row] := by simp [hrow]
  rw [hkept, rowsOf, ← List.nil_append [enumRow line name base description _]] at hat
  obtain ⟨hnone, hlast⟩ := List.append_inj' hat rfl
  refine ⟨rows, base, name, description, hmem, ?_, hnone⟩
  rw [hrows, hlast]

theorem rowsAt_apply_of_not_value (h : Tracks past s) (hvalue : new.2.isValue = false) (n : Nat) :
    rowsAt n (apply s new.1 new.2).scan =
      rowsAt n s.scan ++ if new.1 = n then rowsOf past [] new.1 new.2 else [] := by
  rw [rowsAt, rows_apply h.parent hvalue, List.filter_append,
    filter_eq_ite (fun _ => line_of_mem_rowsOf) n]
  rfl

/-- A value changes the rows of the line of its enumeration only. -/
theorem rowsAt_apply_value (h : Tracks past s) {before : List Numbered} {d : Numbered}
    (hd : before ++ [d] <+: past) (token : List Char) :
    rowsAt d.1 (apply s n (.value token)).scan =
      rowsOf before (tokens d.1 [] past ++ tokenOf d.1 past (.value token)) d.1 d.2 := by
  rw [rowsAt, apply_value, tokenOf]
  cases hline : enumLine? past with
  | none =>
      have hopened : s.opened ≠ .enum := by
        rw [Ne, h.enum, hline]
        exact Bool.false_ne_true
      rw [if_neg hopened, if_neg nofun, List.append_nil]
      exact h.rows hd
  | some line =>
      have hopened : s.opened = .enum := h.enum.mpr (hline ▸ rfl)
      obtain ⟨rows, base, name, description, hmem, hrows, hnone⟩ := h.exists_enum_row hline
      have hvalued : addValue (String.ofList token) s.scan.rows =
          rows ++ [enumRow line name base description
            (tokens line [] past ++ [String.ofList token])] := by
        rw [hrows, addValue_concat]
        rfl
      have hat : ∀ values, [enumRow line name base description values].filter
          (fun row => row.line == d.1) =
            if line = d.1 then [enumRow line name base description values] else [] := fun values =>
        filter_eq_ite (fun row hrow => List.mem_singleton.mp hrow ▸ rfl) d.1
      rw [if_pos hopened, hvalued, List.filter_append, hat]
      by_cases heq : line = d.1
      · obtain ⟨number, directive⟩ := d
        obtain rfl : line = number := heq
        cases h.eq_of_number_eq (mem_of_concat hd) hmem rfl
        rw [hnone, if_pos rfl, if_pos rfl, List.nil_append, rowsOf]
      · have hkept := h.rows hd
        rw [rowsAt, hrows, List.filter_append, hat, if_neg heq] at hkept
        have hne : ¬ some line = some d.1 := fun hsome => heq (Option.some.inj hsome)
        rw [if_neg heq, if_neg hne, List.append_nil (tokens d.1 [] past), hkept]

theorem empty : Tracks [] Scan.empty where
  numbers := List.nodup_nil
  parent := rfl
  enum := by decide
  last := fun _ h => by cases h
  known := fun _ h => by cases h
  rows := fun h => by simp at h
  reported := fun _ h => by cases h
  diagnostics := fun h => by simp at h

theorem rows_apply_old (h : Tracks past s) {before : List Numbered} {d : Numbered}
    (hd : before ++ [d] <+: past) (hne : d.1 ≠ new.1) :
    rowsAt d.1 (apply s new.1 new.2).scan =
      rowsOf before (tokens d.1 [] (past ++ [new])) d.1 d.2 := by
  rw [tokens_concat, List.nil_append]
  cases hvalue : new.2.isValue with
  | false =>
      rw [h.rowsAt_apply_of_not_value hvalue, if_neg hne.symm, List.append_nil,
        tokenOf_of_not_value hvalue, List.append_nil, h.rows hd]
  | true =>
      obtain ⟨token, hnew⟩ := Directive.exists_eq_value hvalue
      rw [hnew]
      exact h.rowsAt_apply_value hd token

/-- A row is of a line before, or of the line itself. -/
theorem line_of_mem_apply (h : Tracks past s) {row : Row}
    (hrow : row ∈ (apply s new.1 new.2).scan.rows) :
    (∃ d ∈ past, d.1 = row.line) ∨ row.line = new.1 ∧ new.2.isValue = false := by
  cases hvalue : new.2.isValue with
  | false =>
      rw [rows_apply h.parent hvalue] at hrow
      rcases List.mem_append.mp hrow with hold | hadded
      · exact Or.inl (h.known row hold)
      · exact Or.inr ⟨line_of_mem_rowsOf hadded, rfl⟩
  | true =>
      obtain ⟨token, hnew⟩ := Directive.exists_eq_value hvalue
      have hline : row.line ∈ s.scan.rows.map (·.line) := by
        have hmem := List.mem_map_of_mem (f := fun row : Row => row.line) hrow
        rw [hnew, apply_value] at hmem
        dsimp only at hmem
        split at hmem
        · rwa [map_line_addValue] at hmem
        · exact hmem
      obtain ⟨other, hother, heq⟩ := List.mem_map.mp hline
      exact Or.inl (heq ▸ h.known other hother)

theorem rows_apply_new (h : Tracks past s) (hnew : ∀ d ∈ past, d.1 ≠ new.1) :
    rowsAt new.1 (apply s new.1 new.2).scan =
      rowsOf past (tokens new.1 [] (past ++ [new])) new.1 new.2 := by
  have htokens : tokens new.1 [] (past ++ [new]) = [] := tokens_new hnew new.2
  rw [htokens]
  cases hvalue : new.2.isValue with
  | false =>
      have hnone : rowsAt new.1 s.scan = [] := filter_eq_nil h.known hnew
      rw [h.rowsAt_apply_of_not_value hvalue, if_pos rfl, hnone, List.nil_append]
  | true =>
      obtain ⟨token, hdirective⟩ := Directive.exists_eq_value hvalue
      have hnone : rowsOf past [] new.1 new.2 = [] := hdirective ▸ rfl
      rw [hnone]
      refine List.filter_eq_nil_iff.mpr fun row hrow heq => ?_
      rcases h.line_of_mem_apply hrow with ⟨d, hd, hline⟩ | ⟨-, hother⟩
      · exact hnew d hd (hline.trans (beq_iff_eq.mp heq))
      · exact Bool.false_ne_true (hother.symm.trans hvalue)

/-- The directive that was added last is behind all others. -/
theorem prefix_concat_cases {before : List Numbered} {d : Numbered}
    (h : before ++ [d] <+: past ++ [new]) : before = past ∧ d = new ∨ before ++ [d] <+: past := by
  rcases List.prefix_concat_iff.mp h with heq | hold
  · obtain ⟨hbefore, hd⟩ := List.append_inj' heq rfl
    exact Or.inl ⟨hbefore, List.singleton_inj.mp hd⟩
  · exact Or.inr hold

theorem diagnosticsAt_apply (h : Tracks past s) (n : Nat) :
    diagnosticsAt n (apply s new.1 new.2).scan =
      diagnosticsAt n s.scan ++ if new.1 = n then diagnosticsOf past new.1 new.2 else [] := by
  rw [diagnosticsAt, diagnostics_apply h.parent, List.filter_append,
    filter_eq_ite (fun _ => line_of_mem_diagnosticsOf) n]
  rfl

/-- A row that is open for values is the last one. -/
theorem exists_last_apply (h : Tracks past s) {line : Nat}
    (hline : enumLine? (past ++ [new]) = some line) :
    ∃ rows row, (apply s new.1 new.2).scan.rows = rows ++ [row] ∧ row.line = line := by
  obtain ⟨n, directive⟩ := new
  rw [enumLine?_concat] at hline
  cases directive with
  | enum base name description =>
      cases hline
      exact ⟨_, _, rfl, rfl⟩
  | value token =>
      obtain ⟨rows, row, hrows, hrow⟩ := h.last line hline
      rw [apply_value, hrows, addValue_concat]
      split
      · exact ⟨_, _, rfl, hrow⟩
      · exact ⟨_, _, rfl, hrow⟩
  | «section» _ | typedef _ _ | param _ | field _ => cases hline

/-- A directive on a line of its own keeps track. -/
theorem apply (h : Tracks past s) (new : Numbered) (hnew : ∀ d ∈ past, d.1 ≠ new.1) :
    Tracks (past ++ [new]) (Scan.apply s new.1 new.2) where
  numbers := by
    rw [List.map_append, List.map_singleton, Keyed.nodup_append_singleton_iff]
    refine ⟨fun hmem => ?_, h.numbers⟩
    obtain ⟨d, hd, hline⟩ := List.mem_map.mp hmem
    exact hnew d hd hline
  parent := typedef?_apply h.parent
  enum := opened_apply_eq_enum_iff h.enum
  last := fun _ hline => h.exists_last_apply hline
  known := by
    intro row hrow
    rcases h.line_of_mem_apply hrow with ⟨d, hd, hline⟩ | ⟨hline, -⟩
    · exact ⟨d, List.mem_append_left _ hd, hline⟩
    · exact ⟨new, List.mem_append_right _ List.mem_cons_self, hline.symm⟩
  rows := by
    intro before d hd
    rcases prefix_concat_cases hd with ⟨rfl, rfl⟩ | hold
    · exact h.rows_apply_new hnew
    · exact h.rows_apply_old hold (hnew d (mem_of_concat hold))
  reported := by
    intro diagnostic hmem
    rw [diagnostics_apply h.parent] at hmem
    rcases List.mem_append.mp hmem with hold | hadded
    · obtain ⟨d, hd, hline⟩ := h.reported diagnostic hold
      exact ⟨d, List.mem_append_left _ hd, hline⟩
    · exact ⟨new, List.mem_append_right _ List.mem_cons_self,
        (line_of_mem_diagnosticsOf hadded).symm⟩
  diagnostics := by
    intro before d hd
    rw [h.diagnosticsAt_apply]
    rcases prefix_concat_cases hd with ⟨rfl, rfl⟩ | hold
    · have hnone : diagnosticsAt d.1 s.scan = [] := filter_eq_nil h.reported hnew
      rw [if_pos rfl, hnone, List.nil_append]
    · rw [if_neg (hnew d (mem_of_concat hold)).symm, List.append_nil, h.diagnostics hold]

end Tracks

/-- A scan keeps track of its directives. -/
theorem tracks_run (texts : List (List Char)) : Tracks (directives 1 texts) (run empty 1 texts) :=
  past_induction .empty (fun d hnew h => h.apply d hnew) texts

/-! ## Fields and values of a text -/

section

variable {text : List Char} {before after : List (List Char)} {line : List Char}

/-- The names of fields hold no separators. -/
theorem isSeparator_of_mem_ofText {row : Row} (h : row ∈ (ofText text).rows)
    (hkind : row.kind = .field) {parent name : String} (hpath : row.path = [parent, name]) :
    ∀ c ∈ name.toList, isSeparator c = false := by
  obtain ⟨before, d, tokens, -, hrow⟩ := (tracks_run (lines text)).exists_of_mem h
  exact isSeparator_of_mem_rowsOf hrow hkind hpath

theorem prefix_directives (h : lines text = before ++ line :: after)
    (hline : Directive.ofLine? line = some directive) :
    directives 1 before ++ [(before.length + 1, directive)] <+: directives 1 (lines text) := by
  rw [h]
  exact directives_concat hline

/-- The rows of a line with a directive are decided by the lines before it, apart from the values
of an enumeration. -/
theorem rowsAt_ofText (h : lines text = before ++ line :: after)
    (hline : Directive.ofLine? line = some directive) :
    rowsAt (before.length + 1) (ofText text) =
      rowsOf (directives 1 before) (tokens (before.length + 1) [] (directives 1 (lines text)))
        (before.length + 1) directive :=
  (tracks_run (lines text)).rows (prefix_directives h hline)

theorem diagnosticsAt_ofText (h : lines text = before ++ line :: after)
    (hline : Directive.ofLine? line = some directive) :
    diagnosticsAt (before.length + 1) (ofText text) =
      diagnosticsOf (directives 1 before) (before.length + 1) directive :=
  (tracks_run (lines text)).diagnostics (prefix_directives h hline)

/-- A value that belongs to no enumeration is no different from an empty line. -/
theorem ofText_of_stray_value (h : lines text = before ++ line :: after) {token : List Char}
    (hline : Directive.ofLine? line = some (.value token))
    (hstray : enumLine? (directives 1 before) = none) :
    ofText text = (run empty 1 (before ++ [] :: after)).scan := by
  have hopened : (run empty 1 before).opened ≠ .enum := by
    rw [Ne, (tracks_run before).enum, hstray]
    exact Bool.false_ne_true
  have hvalue : step (run empty 1 before) (1 + before.length) line = run empty 1 before := by
    rw [step, hline]
    exact if_neg hopened
  rw [ofText, h, run_append, run_append, run, run, hvalue]
  rfl

/-- The row of an enumeration has the tokens of all values that belong to it, the token of this one
behind those of the values before it. -/
theorem exists_rowsAt_of_value (h : lines text = before ++ line :: after) {token : List Char}
    (hline : Directive.ofLine? line = some (.value token)) {number : Nat}
    (henum : enumLine? (directives 1 before) = some number) :
    ∃ base name description later,
      rowsAt number (ofText text) = [enumRow number name base description
        (tokens number [] (directives 1 before) ++ String.ofList token :: later)] := by
  obtain ⟨base, name, description, hmem⟩ := exists_enum_of_enumLine? henum
  obtain ⟨earlier, hpast⟩ := Tracks.exists_concat_of_mem hmem
  have hdirectives : directives 1 (lines text) = directives 1 before ++
      (1 + before.length, .value token) :: directives (1 + before.length + 1) after := by
    rw [h, directives_append, directives_cons_of_some hline]
  have hall : earlier ++ [(number, .enum base name description)] <+: directives 1 (lines text) :=
    hdirectives ▸ hpast.trans (List.prefix_append _ _)
  refine ⟨base, name, description,
    tokens number (directives 1 before ++ [(1 + before.length, .value token)])
      (directives (1 + before.length + 1) after),
    ((tracks_run (lines text)).rows hall).trans ?_⟩
  rw [rowsOf, hdirectives, tokens_append, tokens, tokenOf, List.nil_append, if_pos henum]
  rfl

/-- What the fields and values of a text are attached to.  A field without a separator in its name
is a row of the type that is open at it, or else one complaint and no row.  The row of an
enumeration has the tokens of the values that belong to it, in their order; a value that belongs
to none is no different from an empty line. -/
theorem attachment_ofText (h : lines text = before ++ line :: after) :
    (∀ m, Directive.ofLine? line = some (.field m) → '.' ∉ m.name → '/' ∉ m.name →
      match parent? (directives 1 before) with
      | some parent =>
        rowsAt (before.length + 1) (ofText text) =
          [memberRow (before.length + 1) .field [parent, String.ofList m.name] m] ∧
        diagnosticsAt (before.length + 1) (ofText text) = []
      | none =>
        rowsAt (before.length + 1) (ofText text) = [] ∧
        diagnosticsAt (before.length + 1) (ofText text) =
          [⟨before.length + 1, orphanMessage (String.ofList m.name)⟩]) ∧
    (∀ base name description, Directive.ofLine? line = some (.enum base name description) →
      rowsAt (before.length + 1) (ofText text) =
        [enumRow (before.length + 1) name base description
          (tokens (before.length + 1) [] (directives 1 (lines text)))]) ∧
    (∀ token, Directive.ofLine? line = some (.value token) →
      match enumLine? (directives 1 before) with
      | some number => ∃ base name description later,
        rowsAt number (ofText text) = [enumRow number name base description
          (tokens number [] (directives 1 before) ++ String.ofList token :: later)]
      | none => ofText text = (run empty 1 (before ++ [] :: after)).scan) := by
  refine ⟨fun m hfield hpoint hslash => ?_, fun base name description henum => rowsAt_ofText h henum,
    fun token hvalue => ?_⟩
  · have hname := isSeparator_eq_false hpoint hslash
    have hrows := rowsAt_ofText h hfield
    have hdiagnostics := diagnosticsAt_ofText h hfield
    rw [rowsOf, fieldRow?_of_plain hname] at hrows
    rw [diagnosticsOf, orphan?_of_plain hname] at hdiagnostics
    cases hparent : parent? (directives 1 before) with
    | some parent =>
        rw [hparent] at hrows hdiagnostics
        exact ⟨hrows, hdiagnostics⟩
    | none =>
        rw [hparent] at hrows hdiagnostics
        exact ⟨hrows, hdiagnostics⟩
  · cases henum : enumLine? (directives 1 before) with
    | some number => exact exists_rowsAt_of_value h hvalue henum
    | none => exact ofText_of_stray_value h hvalue henum

/-- A type with a field, an enumeration with a value, and a field that comes too late. -/
def tierText : List Char :=
  ("## @typedef {struct} Gpu\n## @field {string} model\n" ++
    "## @enum {string} Tier\n## @value small\n## @field {int} size").toList

theorem attachment_tierText :
    rowsAt 2 (ofText tierText) =
      [memberRow 2 .field ["Gpu", "model"] ⟨"model".toList, false, "string".toList, [], []⟩] ∧
    rowsAt 3 (ofText tierText) = [enumRow 3 "Tier".toList "string".toList [] ["small"]] ∧
    diagnosticsAt 5 (ofText tierText) = [⟨5, orphanMessage "size"⟩] := by
  have hlines : lines tierText = ["## @typedef {struct} Gpu".toList,
      "## @field {string} model".toList, "## @enum {string} Tier".toList,
        "## @value small".toList, "## @field {int} size".toList] := by
    unfold tierText
    repeat rw [String.toList_append]
    repeat rw [String.toList_ofList]
    rfl
  generalize hfirst : "## @typedef {struct} Gpu".toList = first at hlines
  generalize hmodel : "## @field {string} model".toList = model at hlines
  generalize htier : "## @enum {string} Tier".toList = tier at hlines
  generalize hsmall : "## @value small".toList = small at hlines
  generalize hsize : "## @field {int} size".toList = size at hlines
  have hopened : parent? (directives 1 [first]) = some "Gpu" := by
    rw [← hfirst]
    decide +kernel
  have hclosed : parent? (directives 1 [first, model, tier, small]) = none := by
    rw [← hfirst, ← hmodel, ← htier, ← hsmall]
    decide +kernel
  have htokens : tokens 3 [] (directives 1 (lines tierText)) = ["small"] := by
    rw [hlines, ← hfirst, ← hmodel, ← htier, ← hsmall, ← hsize]
    decide +kernel
  have hmodelAt : lines tierText = [first] ++ model :: [tier, small, size] := hlines
  have htierAt : lines tierText = [first, model] ++ tier :: [small, size] := hlines
  have hsizeAt : lines tierText = [first, model, tier, small] ++ size :: [] := hlines
  have hattached := (attachment_ofText hmodelAt).1 ⟨"model".toList, false, "string".toList, [], []⟩
    (by rw [← hmodel]; decide +kernel) (by decide) (by decide)
  have horphan := (attachment_ofText hsizeAt).1 ⟨"size".toList, false, "int".toList, [], []⟩
    (by rw [← hsize]; decide +kernel) (by decide) (by decide)
  have hvalued := (attachment_ofText htierAt).2.1 "string".toList "Tier".toList []
    (by rw [← htier]; decide +kernel)
  rw [hopened] at hattached
  rw [hclosed] at horphan
  exact ⟨hattached.1,
    hvalued.trans (congrArg (fun values => [enumRow 3 _ _ _ values]) htokens), horphan.2⟩

end

end Scan

end AnnotatedValues.Annotation
