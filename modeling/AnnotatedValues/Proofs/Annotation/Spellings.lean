import AnnotatedValues.Proofs.Annotation.Attachment
import AnnotatedValues.Proofs.Annotation.Modifiers

/-!
# Two spellings of a member

A parameter or field is written with its block first and the default behind its
name, or with its name first and the default in its block.  Both spellings scan
to the same row, apart from the text of the block, in which the same type is
found.
-/

namespace AnnotatedValues.Annotation

open Text

/-! ## Parts of a line -/

theorem isBlank_of_isMemberChar {c : Char} (h : isMemberChar c = true) : isBlank c = false := by
  simp only [isMemberChar, Bool.or_eq_true, beq_iff_eq] at h
  rcases h with ((hword | rfl) | rfl) | rfl
  · exact isBlank_of_isWord hword
  · rfl
  · rfl
  · rfl

/-- A name, in square brackets if it is optional. -/
def nameText (optional : Bool) (name : List Char) : List Char :=
  if optional then '[' :: (name ++ [']']) else name

theorem takeName?_nameText {name tail : List Char} (optional : Bool) (hne : name ≠ [])
    (hname : ∀ c ∈ name, isMemberChar c = true) (htail : ∀ c ∈ tail.head?, isMemberChar c = false) :
    takeName? (nameText optional name ++ tail) = some (name, optional, tail) := by
  cases optional with
  | true =>
      obtain ⟨htake, hdrop⟩ : (name ++ ']' :: tail).takeWhile isMemberChar = name ∧
          (name ++ ']' :: tail).dropWhile isMemberChar = ']' :: tail :=
        span_append hname fun c hc => Option.some.inj hc ▸ by decide
      have htext : nameText true name ++ tail = '[' :: (name ++ ']' :: tail) := by simp [nameText]
      obtain ⟨c, rest, rfl⟩ := List.exists_cons_of_ne_nil hne
      rw [htext, takeName?, htake, hdrop]
      rfl
  | false =>
      obtain ⟨htake, hdrop⟩ := span_append hname htail
      obtain ⟨c, rest, rfl⟩ := List.exists_cons_of_ne_nil hne
      have hbracket : isMemberChar '[' = false := by decide
      change takeName? (c :: rest ++ tail) = _
      unfold takeName?
      split
      · rename_i heq
        cases heq
        exact absurd (hname '[' List.mem_cons_self) (Bool.eq_false_iff.mp hbracket)
      · rw [htake, hdrop]

/-- A description behind a dash. -/
def dashed : List Char → List Char
  | [] => []
  | description => " - ".toList ++ description

/-- A description behind a blank. -/
def spaced : List Char → List Char
  | [] => []
  | description => ' ' :: description

theorem description?_blank (cs : List Char) :
    description? (' ' :: cs) =
      match trim cs with
      | ['-'] => some []
      | '-' :: d :: rest => if isBlank d then some (trimStart rest) else some ('-' :: d :: rest)
      | text => some text := rfl

theorem description?_dashed {description : List Char} (h : Trimmed description) :
    description? (dashed description) = some description := by
  cases description with
  | nil => rfl
  | cons c rest =>
      have htrim : trim ('-' :: ' ' :: c :: rest) = '-' :: ' ' :: c :: rest :=
        trim_eq_self_iff.mpr (.append (List.cons_ne_nil '-' [' ']) (List.cons_ne_nil c rest)
          (fun d hd => Option.some.inj hd ▸ rfl) h.last)
      have hdashed : dashed (c :: rest) = ' ' :: '-' :: ' ' :: c :: rest := rfl
      rw [hdashed, description?_blank, htrim]
      exact congrArg some (trimStart_eq_self h.head)

theorem description?_spaced {description : List Char} (h : Trimmed description)
    (hdash : description.head? ≠ some '-') :
    description? (spaced description) = some description := by
  cases description with
  | nil => rfl
  | cons c rest =>
      have hspaced : spaced (c :: rest) = ' ' :: c :: rest := rfl
      rw [hspaced, description?_blank, trim_eq_self_iff.mpr h]
      split
      · rename_i heq
        exact absurd (congrArg List.head? heq) hdash
      · rename_i heq
        exact absurd (congrArg List.head? heq) hdash
      · rfl

theorem isBlank_getLast?_dashed {description : List Char} (h : Trimmed description) :
    ∀ c ∈ (dashed description).getLast?, isBlank c = false := by
  cases description with
  | nil => exact nofun
  | cons c rest => exact h.last

theorem isBlank_getLast?_spaced {description : List Char} (h : Trimmed description) :
    ∀ c ∈ (spaced description).getLast?, isBlank c = false := by
  cases description with
  | nil => exact nofun
  | cons c rest => exact h.last

/-- A default behind an equals sign. -/
def assigned : List Char → List Char
  | [] => []
  | default => '=' :: default

theorem head?_dashed (description : List Char) : ∀ c ∈ (dashed description).head?, c = ' ' := by
  intro c hc
  cases description with
  | nil => cases hc
  | cons => exact (Option.some.inj hc).symm

theorem head?_assigned_dashed (default description : List Char) :
    ∀ c ∈ (assigned default ++ dashed description).head?, isMemberChar c = false := by
  intro c hc
  cases default with
  | nil => exact head?_dashed description c hc ▸ by decide
  | cons d default => exact Option.some.inj hc ▸ by decide

theorem eq_append_of_assigned {default description tail : List Char}
    (h : assigned default ++ dashed description = '=' :: tail) :
    default ≠ [] ∧ tail = default ++ dashed description := by
  cases default with
  | nil =>
      have hhead := head?_dashed description '=' (by rw [← List.nil_append (dashed _)]; exact h ▸ rfl)
      exact absurd hhead (by decide)
  | cons d default => exact ⟨List.cons_ne_nil _ _, (List.cons.inj h).2.symm⟩

/-- What a line says whose text is trimmed. -/
theorem Directive.ofLine?_signs (signs : Nat) {word text : List Char}
    (hword : ∀ c ∈ word, isBlank c = false) (hne : text ≠ []) (htext : Trimmed text) :
    ofLine? (List.replicate (signs + 1) '#' ++ " @".toList ++ (word ++ ' ' :: text)) =
      directive? word text := by
  have hline : List.replicate (signs + 1) '#' ++ " @".toList ++ (word ++ ' ' :: text) =
      '#' :: (List.replicate signs '#' ++ ' ' :: '@' :: (word ++ ' ' :: text)) := by
    simp [List.replicate_succ]
  have htrimmed : Trimmed (List.replicate (signs + 1) '#' ++ " @".toList ++ (word ++ ' ' :: text)) := by
    constructor
    · rw [hline]
      exact fun c hc => Option.some.inj hc ▸ rfl
    · rw [List.getLast?_append_of_ne_nil _ (by simp), List.getLast?_append_of_ne_nil _ (by simp),
        List.getLast?_cons_of_ne_nil hne]
      exact htext.last
  have hsigns : (List.replicate signs '#' ++ ' ' :: '@' :: (word ++ ' ' :: text)).dropWhile (· == '#') =
      ' ' :: '@' :: (word ++ ' ' :: text) :=
    (span_append (fun c hc => beq_iff_eq.mpr (List.eq_of_mem_replicate hc))
      fun c hc => Option.some.inj hc ▸ rfl).2
  obtain ⟨htake, hdrop⟩ : (word ++ ' ' :: text).takeWhile (fun c => !isBlank c) = word ∧
      (word ++ ' ' :: text).dropWhile (fun c => !isBlank c) = ' ' :: text :=
    span_append (fun c hc => by rw [hword c hc]; rfl) fun c hc => Option.some.inj hc ▸ rfl
  have hrest : trim (' ' :: text) = text := trim_eq_self_iff.mpr htext
  have hafter : afterBlank?
      ((List.replicate signs '#' ++ ' ' :: '@' :: (word ++ ' ' :: text)).dropWhile (· == '#')) =
        some ('@' :: (word ++ ' ' :: text)) := by
    rw [hsigns]
    rfl
  rw [ofLine?, trim_eq_self_iff.mpr htrimmed, hline]
  simp only [hafter, htake, hdrop, hrest]

/-! ## Members as written -/

/-- The name of a parameter, a field or a type with fields. -/
structure IsPart (name : List Char) : Prop where
  ne_nil : name ≠ []
  chars : ∀ c ∈ name, isTypeChar c = true

/-- A member and the way its type is written. -/
structure Spelled where
  type : TypeExpr
  typeText : List Char
  /-- The type that a field belongs to; a parameter belongs to none. -/
  parent? : Option (List Char)
  name : List Char
  optional : Bool
  choices : List (List Char)
  /-- Empty if there is none, as is the description. -/
  default : List Char
  description : List Char
  written : TypeExpr.Written typeText type
  isPart_name : IsPart name
  isPart_parent : ∀ parent ∈ parent?, IsPart parent
  isChoice : ∀ choice ∈ choices, IsChoice choice
  isBare : ∀ c ∈ default, isBare c = true
  trimmed : trim description = description
  undashed : description.head? ≠ some '-'

namespace Spelled

variable (m : Spelled)

def path : List (List Char) := m.parent?.toList ++ [m.name]

/-- The name with that of the type before it. -/
def fullName : List Char := joined ['.'] m.path

/-- The block, with a default in it. -/
def block (default : List Char) : List Char := blockText m.typeText m.choices default

def blockFirst : List Char :=
  '{' :: (m.block [] ++ '}' :: ' ' :: (nameText m.optional m.fullName ++
    (assigned m.default ++ dashed m.description)))

def nameFirst : List Char :=
  nameText m.optional m.fullName ++
    ' ' :: '{' :: (m.block m.default ++ '}' :: spaced m.description)

/-- The line of the text behind number signs. -/
def line (signs : Nat) (text : List Char) : List Char :=
  List.replicate (signs + 1) '#' ++ " @".toList ++
    ((if m.parent?.isSome then "field".toList else "param".toList) ++ ' ' :: text)

def kind : Kind := if m.parent?.isSome then .field else .param

/-- The row of a line with the given block. -/
def row (n : Nat) (block : List Char) : Row where
  kind := m.kind
  path := m.path.map String.ofList
  typeBlock := String.ofList (trim block)
  choices := m.choices.map String.ofList
  default := String.ofList m.default
  description := String.ofList m.description
  optional := m.optional
  line := n

variable {m}

theorem isMemberChar_of_mem_fullName {c : Char} (hc : c ∈ m.fullName) : isMemberChar c = true := by
  rcases mem_of_mem_joined hc with hdot | ⟨part, hpart, hc⟩
  · rw [List.mem_singleton.mp hdot]
    decide
  · rcases List.mem_append.mp hpart with hparent | hname
    · exact isMemberChar_of_isTypeChar
        ((m.isPart_parent part (Option.mem_toList.mp hparent)).chars c hc)
    · rw [List.mem_singleton.mp hname] at hc
      exact isMemberChar_of_isTypeChar (m.isPart_name.chars c hc)

theorem fullName_ne_nil : m.fullName ≠ [] := by
  rw [fullName, path]
  cases m.parent? with
  | none => exact m.isPart_name.ne_nil
  | some parent =>
      have hjoined : joined ['.'] ((some parent).toList ++ [m.name]) = parent ++ ['.'] ++ m.name := rfl
      rw [hjoined]
      exact List.append_ne_nil_of_right_ne_nil _ m.isPart_name.ne_nil

theorem takeName?_fullName (tail : List Char) (htail : ∀ c ∈ tail.head?, isMemberChar c = false) :
    takeName? (nameText m.optional m.fullName ++ tail) = some (m.fullName, m.optional, tail) :=
  takeName?_nameText m.optional fullName_ne_nil (fun _ => isMemberChar_of_mem_fullName) htail

theorem head?_nameText (tail : List Char) :
    ∀ c ∈ (nameText m.optional m.fullName ++ tail).head?, c = '[' ∨ isMemberChar c = true := by
  intro c hc
  cases hoptional : m.optional with
  | true =>
      rw [hoptional] at hc
      exact Or.inl (Option.some.inj hc).symm
  | false =>
      rw [hoptional, nameText, if_neg Bool.false_ne_true,
        List.head?_append_of_ne_nil _ fullName_ne_nil] at hc
      exact Or.inr (isMemberChar_of_mem_fullName (List.mem_of_mem_head? hc))

theorem isBlank_head?_nameText (tail : List Char) :
    ∀ c ∈ (nameText m.optional m.fullName ++ tail).head?, isBlank c = false := by
  intro c hc
  rcases head?_nameText tail c hc with rfl | hmember
  · rfl
  · exact isBlank_of_isMemberChar hmember

theorem afterBlank?_nameText (tail : List Char) :
    afterBlank? (' ' :: (nameText m.optional m.fullName ++ tail)) =
      some (nameText m.optional m.fullName ++ tail) :=
  congrArg some (trimStart_eq_self (isBlank_head?_nameText tail))

theorem blockFirst?_blockFirst : blockFirst? m.blockFirst =
    some ⟨m.fullName, m.optional, m.block [], m.default, m.description⟩ := by
  have hbraced : takeBraced? m.blockFirst =
      some (m.block [], ' ' :: (nameText m.optional m.fullName ++
        (assigned m.default ++ dashed m.description))) :=
    takeBraced?_of_nested
      (nested_blockText m.written m.isChoice fun _ hc => absurd hc List.not_mem_nil) _
  have hname := takeName?_fullName (m := m) (assigned m.default ++ dashed m.description)
    (head?_assigned_dashed m.default m.description)
  have hdescription := description?_dashed (trim_eq_self_iff.mp m.trimmed)
  have hblank : ∀ c ∈ (dashed m.description).head?, isBlank c = true := fun c hc =>
    head?_dashed _ c hc ▸ rfl
  simp only [blockFirst?, hbraced, afterBlank?_nameText, hname, Option.bind_eq_bind,
    Option.bind_some]
  split
  · rename_i tail htail
    obtain ⟨hne, rfl⟩ := eq_append_of_assigned htail
    rw [takeLiteral?_append hne m.isBare hblank, Option.bind_some, hdescription]
    rfl
  · rename_i hnone
    have hnil : m.default = [] := by
      cases hdefault : m.default with
      | nil => rfl
      | cons d default => exact (hnone (d :: default ++ dashed m.description) (by rw [hdefault]; rfl)).elim
    rw [hnil, assigned, List.nil_append, hdescription]
    rfl

theorem nameFirst?_nameFirst : nameFirst? m.nameFirst =
    some ⟨m.fullName, m.optional, m.block m.default, [], m.description⟩ := by
  have hname : takeName? m.nameFirst =
      some (m.fullName, m.optional, ' ' :: '{' :: (m.block m.default ++ '}' :: spaced m.description)) :=
    takeName?_fullName _ fun c hc => Option.some.inj hc ▸ by decide
  have hblank : ∀ cs, afterBlank? (' ' :: '{' :: cs) = some ('{' :: cs) := fun _ => rfl
  have hbraced := takeBraced?_of_nested (nested_blockText m.written m.isChoice m.isBare)
  simp only [nameFirst?, hname, hblank, block, hbraced, Option.bind_eq_bind, Option.bind_some,
    description?_spaced (trim_eq_self_iff.mp m.trimmed) m.undashed]
  rfl

theorem member?_blockFirst :
    member? m.blockFirst = some ⟨m.fullName, m.optional, m.block [], m.default, m.description⟩ := by
  rw [member?, blockFirst?_blockFirst, Option.some_or]

/-- A text that begins with a name has no block at its start. -/
theorem takeBraced?_nameFirst : takeBraced? m.nameFirst = none := by
  unfold takeBraced?
  split
  · rename_i cs heq
    have hbrace : ¬ ('{' = '[' ∨ isMemberChar '{' = true) := by decide
    exact absurd (head?_nameText _ '{' (congrArg List.head? heq)) hbrace
  · rfl

theorem member?_nameFirst :
    member? m.nameFirst =
      some ⟨m.fullName, m.optional, m.block m.default, [], m.description⟩ := by
  have hnone : blockFirst? m.nameFirst = none := by
    rw [blockFirst?, takeBraced?_nameFirst]
    rfl
  rw [member?, hnone, Option.none_or, nameFirst?_nameFirst]

/-! ## Lines -/

variable {m : Spelled}

theorem isBlank_getLast?_nameText :
    ∀ c ∈ (nameText m.optional m.fullName).getLast?, isBlank c = false := by
  intro c hc
  cases hoptional : m.optional with
  | true =>
      rw [hoptional, nameText, if_pos rfl, ← List.cons_append, List.getLast?_concat] at hc
      exact Option.some.inj hc ▸ rfl
  | false =>
      rw [hoptional, nameText, if_neg Bool.false_ne_true] at hc
      exact isBlank_of_isMemberChar (isMemberChar_of_mem_fullName (List.mem_of_mem_getLast? hc))

theorem nameText_ne_nil : nameText m.optional m.fullName ≠ [] := by
  cases hoptional : m.optional with
  | true => exact List.cons_ne_nil _ _
  | false => exact fullName_ne_nil

theorem nameFirst_ne_nil : m.nameFirst ≠ [] :=
  List.append_ne_nil_of_left_ne_nil nameText_ne_nil _

theorem trimmed_blockFirst : Trimmed m.blockFirst where
  head := fun c hc => Option.some.inj hc ▸ rfl
  last := by
    have hsplit : m.blockFirst = ('{' :: (m.block [] ++ ['}', ' '])) ++
        (nameText m.optional m.fullName ++ (assigned m.default ++ dashed m.description)) := by
      simp [blockFirst]
    rw [hsplit, List.getLast?_append_of_ne_nil _ (List.append_ne_nil_of_left_ne_nil nameText_ne_nil _)]
    refine isBlank_getLast?_append isBlank_getLast?_nameText (isBlank_getLast?_append ?_ ?_)
    · cases hdefault : m.default with
      | nil => exact nofun
      | cons d default =>
          have hbare := m.isBare
          rw [hdefault] at hbare
          rw [assigned, List.getLast?_cons_cons]
          · exact fun c hc => (isBare_iff.mp (hbare c (List.mem_of_mem_getLast? hc))).2.1
          · exact nofun
    · exact isBlank_getLast?_dashed (trim_eq_self_iff.mp m.trimmed)

theorem trimmed_nameFirst : Trimmed m.nameFirst where
  head := isBlank_head?_nameText _
  last := by
    have hsplit : m.nameFirst = (nameText m.optional m.fullName ++ ' ' :: '{' :: m.block m.default) ++
        (['}'] ++ spaced m.description) := by
      simp [nameFirst]
    rw [hsplit, List.getLast?_append_of_ne_nil _
      (List.append_ne_nil_of_left_ne_nil (List.cons_ne_nil '}' []) _)]
    exact isBlank_getLast?_append (fun c hc => Option.some.inj hc ▸ rfl)
      (isBlank_getLast?_spaced (trim_eq_self_iff.mp m.trimmed))

/-- The directive of a line with the given block and default. -/
def directive (m : Spelled) (block default : List Char) : Directive :=
  if m.parent?.isSome then .field ⟨m.fullName, m.optional, block, default, m.description⟩
  else .param ⟨m.fullName, m.optional, block, default, m.description⟩

theorem ofLine?_line (signs : Nat) {text block default : List Char} (hne : text ≠ [])
    (htext : Trimmed text)
    (hmember : member? text = some ⟨m.fullName, m.optional, block, default, m.description⟩) :
    Directive.ofLine? (m.line signs text) = some (m.directive block default) := by
  have hfield : ∀ c ∈ "field".toList, isBlank c = false := fun c hc =>
    isBlank_of_isWord (List.all_eq_true.mp (by decide) c hc)
  have hparam : ∀ c ∈ "param".toList, isBlank c = false := fun c hc =>
    isBlank_of_isWord (List.all_eq_true.mp (by decide) c hc)
  rw [line, directive]
  split
  · rw [Directive.ofLine?_signs signs hfield hne htext]
    change (member? text).map Directive.field = _
    rw [hmember]
    rfl
  · rw [Directive.ofLine?_signs signs hparam hne htext]
    change (member? text).map Directive.param = _
    rw [hmember]
    rfl

end Spelled

/-! ## Rows with another block -/

/-- The row with the given block, if it is one of the line `n`. -/
def Row.reblock (n : Nat) (block : String) (row : Row) : Row :=
  if row.line = n then { row with typeBlock := block } else row

def Scan.reblock (n : Nat) (block : String) (scan : Scan) : Scan :=
  { scan with rows := scan.rows.map (Row.reblock n block) }

namespace Scan

def State.reblock (n : Nat) (block : String) (s : State) : State :=
  { s with scan := s.scan.reblock n block }

variable {n k : Nat} {block : String}

theorem map_reblock_of_ne {rows : List Row} (h : ∀ row ∈ rows, row.line ≠ n) :
    rows.map (Row.reblock n block) = rows :=
  (List.map_congr_left fun row hrow => if_neg (h row hrow)).trans (List.map_id rows)

theorem reblock_withValue (row : Row) (token : String) :
    (row.withValue token).reblock n block = (row.reblock n block).withValue token := by
  unfold Row.reblock
  by_cases hline : row.line = n
  · rw [if_pos hline]
    exact if_pos hline
  · rw [if_neg hline]
    exact if_neg hline

theorem map_reblock_addValue (token : String) (rows : List Row) :
    (addValue token rows).map (Row.reblock n block) =
      addValue token (rows.map (Row.reblock n block)) := by
  rcases List.eq_nil_or_concat rows with rfl | ⟨front, row, rfl⟩
  · rfl
  · rw [List.concat_eq_append, addValue_concat, List.map_append, List.map_append, List.map_singleton,
      List.map_singleton, addValue_concat, reblock_withValue]

theorem addRow_reblock (s : State) (row : Row) (h : row.line ≠ n) :
    addRow (s.reblock n block) row = (addRow s row).reblock n block := by
  have hrow : [row].map (Row.reblock n block) = [row] :=
    map_reblock_of_ne (List.forall_mem_singleton.mpr h)
  simp only [addRow, State.reblock, Scan.reblock, List.map_append, hrow]

/-- A line changes rows of other lines in nothing that depends on their blocks. -/
theorem apply_reblock (hk : k ≠ n) (s : State) (directive : Directive) :
    apply (s.reblock n block) k directive = (apply s k directive).reblock n block := by
  cases directive with
  | «section» title => rfl
  | typedef name description =>
      exact congrArg (fun s => { s with opened := .typedef (String.ofList name) })
        (addRow_reblock s (declarationRow k .typedef name [] description) hk)
  | enum base name description =>
      exact congrArg (fun s => { s with opened := .enum })
        (addRow_reblock s (declarationRow k .enum name base description) hk)
  | value token =>
      rw [apply_value, apply_value]
      simp only [State.reblock, Scan.reblock, apply_ite (List.map _), map_reblock_addValue]
      rfl
  | param m =>
      let name := String.ofList m.name
      exact addRow_reblock ⟨{ s.scan with sections := register name s.scan.sections }, .nothing⟩
        (memberRow k .param [name] m) hk
  | field m =>
      have hrow : (fieldRow? s.opened.typedef? k m).toList.map (Row.reblock n block) =
          (fieldRow? s.opened.typedef? k m).toList :=
        map_reblock_of_ne fun row hrow => line_of_fieldRow? (Option.mem_toList.mp hrow) ▸ hk
      rw [apply_field, apply_field]
      simp only [State.reblock, Scan.reblock, List.map_append, hrow]
      rfl

/-- Lines behind a row are scanned alike whatever its block is. -/
theorem run_reblock {line : Nat} (hline : n < line) (s : State) (texts : List (List Char)) :
    run (s.reblock n block) line texts = (run s line texts).reblock n block := by
  induction texts generalizing s line with
  | nil => rfl
  | cons text texts ih =>
      rw [run, run, step, step]
      cases Directive.ofLine? text with
      | none => exact ih (Nat.lt_succ_of_lt hline) s
      | some directive =>
          dsimp only
          rw [apply_reblock (Nat.ne_of_gt hline), ih (Nat.lt_succ_of_lt hline)]

/-! ## Both spellings -/

section

variable (m : Spelled)

theorem memberRow_blockFirst (n : Nat) :
    memberRow n m.kind (m.path.map String.ofList)
        ⟨m.fullName, m.optional, m.block [], m.default, m.description⟩ = m.row n (m.block []) := by
  have hnone : ∀ c ∈ ([] : List Char), isBare c = true := nofun
  have hchoices : blockChoices (m.block []) = m.choices :=
    blockChoices_blockText m.written m.isChoice hnone
  have hdefault : blockDefault? (m.block []) = none :=
    blockDefault?_blockText m.written m.isChoice hnone
  rw [memberRow, hchoices, hdefault, Option.getD_none, Spelled.row]
  cases m.default with
  | nil => rfl
  | cons => rfl

theorem memberRow_nameFirst (n : Nat) :
    memberRow n m.kind (m.path.map String.ofList)
        ⟨m.fullName, m.optional, m.block m.default, [], m.description⟩ =
      m.row n (m.block m.default) := by
  have hchoices : blockChoices (m.block m.default) = m.choices :=
    blockChoices_blockText m.written m.isChoice m.isBare
  have hdefault : (blockDefault? (m.block m.default)).getD [] = m.default := by
    rw [Spelled.block, blockDefault?_blockText m.written m.isChoice m.isBare]
    split
    · rename_i hnil
      exact hnil.symm
    · rfl
  rw [memberRow, hchoices, hdefault, Spelled.row]
  rfl

theorem ofBlock_row (n : Nat) {default : List Char} (hdefault : ∀ c ∈ default, isBare c = true) :
    TypeExpr.ofBlock (m.row n (m.block default)).typeBlock = .ok m.type := by
  have hparse : TypeExpr.parse (m.block default) = .ok m.type := parse_blockText m.written hdefault
  rw [TypeExpr.parse, TypeExpr.stripModifiers] at hparse
  rw [TypeExpr.ofBlock, Fallible.mapError_eq_ok_iff, Spelled.row, String.toList_ofList,
    TypeExpr.parse, TypeExpr.stripModifiers, trim_trim]
  exact hparse

variable {m}

theorem splitBy_fullName {parent : List Char} (h : m.parent? = some parent) :
    splitBy isSeparator m.fullName = [parent, m.name] := by
  have hpart : ∀ {part : List Char}, IsPart part → splitBy isSeparator part = [part] := by
    intro part hpart
    refine splitBy_eq_singleton (isSeparator_eq_false (fun hc => ?_) fun hc => ?_)
    · exact absurd (hpart.chars _ hc) (by decide)
    · exact absurd (hpart.chars _ hc) (by decide)
  have hname : m.fullName = parent ++ '.' :: m.name := by
    rw [Spelled.fullName, Spelled.path, h]
    simp [joined]
  have hdot : isSeparator '.' = true := rfl
  rw [hname, splitBy_append hdot, hpart (m.isPart_parent parent h), hpart m.isPart_name]
  rfl

/-- A name with that of a type before it is a field of the type, whatever is open. -/
theorem fieldRow?_fullName {parent : List Char} (h : m.parent? = some parent)
    (opened? : Option String) (n : Nat) (member : Member) (hname : member.name = m.fullName) :
    fieldRow? opened? n member = some (memberRow n .field (m.path.map String.ofList) member) ∧
      orphan? opened? n member = none := by
  have hsplit : splitBy isSeparator member.name = [parent, m.name] := by
    rw [hname, splitBy_fullName h]
  have hpath : m.path.map String.ofList = [String.ofList parent, String.ofList m.name] := by
    rw [Spelled.path, h]
    rfl
  have hparent := List.isEmpty_eq_false_iff.mpr (m.isPart_parent parent h).ne_nil
  have hfield := List.isEmpty_eq_false_iff.mpr m.isPart_name.ne_nil
  constructor
  · rw [fieldRow?, hsplit, hpath]
    simp only [hparent, hfield, Bool.or_self, Bool.false_eq_true, if_false]
  · unfold orphan?
    rw [hsplit]

theorem rowsOf_directive (past : List Numbered) (tokens : List String) (n : Nat)
    (block default : List Char) :
    rowsOf past tokens n (m.directive block default) =
      [memberRow n m.kind (m.path.map String.ofList)
        ⟨m.fullName, m.optional, block, default, m.description⟩] := by
  cases hparent : m.parent? with
  | none =>
      rw [Spelled.directive, Spelled.kind, Spelled.fullName, Spelled.path, hparent]
      rfl
  | some parent =>
      have hdirective : m.directive block default =
          .field ⟨m.fullName, m.optional, block, default, m.description⟩ := by
        rw [Spelled.directive, hparent]
        rfl
      rw [hdirective, rowsOf, (fieldRow?_fullName hparent _ n _ rfl).1, Spelled.kind, hparent]
      rfl

/-- The directive of a member adds its row, and does nothing else that its block plays a part in. -/
theorem exists_apply_directive (s : State) (n : Nat) :
    ∃ s', s'.scan.rows = s.scan.rows ∧ ∀ block default,
      apply s n (m.directive block default) =
        addRow s' (memberRow n m.kind (m.path.map String.ofList)
          ⟨m.fullName, m.optional, block, default, m.description⟩) := by
  cases hparent : m.parent? with
  | none =>
      refine ⟨⟨{ s.scan with sections := register (String.ofList m.fullName) s.scan.sections },
        .nothing⟩, rfl, fun block default => ?_⟩
      rw [Spelled.directive, Spelled.kind, Spelled.fullName, Spelled.path, hparent]
      rfl
  | some parent =>
      refine ⟨{ s with opened := if s.opened = .enum then .nothing else s.opened }, rfl,
        fun block default => ?_⟩
      obtain ⟨hrow, horphan⟩ := fieldRow?_fullName hparent s.opened.typedef? n
        ⟨m.fullName, m.optional, block, default, m.description⟩ rfl
      have hdirective : m.directive block default =
          .field ⟨m.fullName, m.optional, block, default, m.description⟩ := by
        rw [Spelled.directive, hparent]
        rfl
      rw [hdirective, apply_field, hrow, horphan, Spelled.kind, hparent]
      simp [addRow]

/-- Both spellings of a member scan to one row, apart from the text of the block, and make no other
difference; and the same type is found in both blocks. -/
theorem ofText_nameFirst (m : Spelled) {before after : List (List Char)} {new old : List Char}
    (signs signs' : Nat) (hnew : lines new = before ++ m.line signs m.blockFirst :: after)
    (hold : lines old = before ++ m.line signs' m.nameFirst :: after) :
    rowsAt (before.length + 1) (ofText new) = [m.row (before.length + 1) (m.block [])] ∧
      rowsAt (before.length + 1) (ofText old) = [m.row (before.length + 1) (m.block m.default)] ∧
      ofText old = (ofText new).reblock (before.length + 1)
        (m.row (before.length + 1) (m.block m.default)).typeBlock ∧
      TypeExpr.ofBlock (m.row (before.length + 1) (m.block [])).typeBlock = .ok m.type ∧
      TypeExpr.ofBlock (m.row (before.length + 1) (m.block m.default)).typeBlock = .ok m.type := by
  have hfirst : Directive.ofLine? (m.line signs m.blockFirst) =
      some (m.directive (m.block []) m.default) :=
    Spelled.ofLine?_line signs (List.cons_ne_nil _ _) Spelled.trimmed_blockFirst
      Spelled.member?_blockFirst
  have hsecond : Directive.ofLine? (m.line signs' m.nameFirst) =
      some (m.directive (m.block m.default) []) :=
    Spelled.ofLine?_line signs' Spelled.nameFirst_ne_nil Spelled.trimmed_nameFirst Spelled.member?_nameFirst
  refine ⟨?_, ?_, ?_, ofBlock_row m _ nofun, ofBlock_row m _ m.isBare⟩
  · rw [rowsAt_ofText hnew hfirst, rowsOf_directive, memberRow_blockFirst]
  · rw [rowsAt_ofText hold hsecond, rowsOf_directive, memberRow_nameFirst]
  · obtain ⟨s, hs, happly⟩ := exists_apply_directive (m := m) (run empty 1 before) (before.length + 1)
    have hother : s.scan.rows.map (Row.reblock (before.length + 1)
        (m.row (before.length + 1) (m.block m.default)).typeBlock) = s.scan.rows := by
      refine map_reblock_of_ne fun row hrow hline => ?_
      obtain ⟨d, hd, hnumber⟩ := (tracks_run before).known row (hs ▸ hrow)
      have hlt := lt_of_mem_directives hd
      omega
    have happly : apply (run empty 1 before) (before.length + 1) (m.directive (m.block m.default) []) =
        (apply (run empty 1 before) (before.length + 1) (m.directive (m.block []) m.default)).reblock
          (before.length + 1) (m.row (before.length + 1) (m.block m.default)).typeBlock := by
      rw [happly, happly, memberRow_blockFirst, memberRow_nameFirst]
      simp only [addRow, State.reblock, Scan.reblock, List.map_append, hother]
      simp [Row.reblock, Spelled.row]
    rw [ofText, hold, ofText, hnew, run_append, run_append, run, run, step, step, hsecond, hfirst]
    dsimp only
    rw [Nat.add_comm 1, happly, run_reblock (Nat.lt_succ_self _)]
    rfl

/-- A field with choices in brackets and of two words. -/
def tierSpelled : Spelled where
  type := .map (.array (.named "string"))
  typeText := "map[string][]string".toList
  parent? := some "Gpu".toList
  name := "tier-1".toList
  optional := true
  choices := ["[a]".toList, "b c".toList]
  default := "b".toList
  description := "How fast".toList
  written := .chars (t := .map (.array (.named "string"))) (by decide)
    (List.all_eq_true.mp (by decide))
  isPart_name := ⟨by decide, List.all_eq_true.mp (by decide)⟩
  isPart_parent := fun parent h =>
    Option.some.inj h ▸ ⟨by decide, List.all_eq_true.mp (by decide)⟩
  isChoice := by
    have hchoice : ∀ choice ∈ ["[a]".toList, "b c".toList], choice ≠ [] ∧ trim choice = choice ∧
        '"' ∉ choice ∧ ',' ∉ choice ∧ '\\' ∉ choice ∧ ¬ "default".toList <:+: choice := by decide
    intro choice h
    obtain ⟨hne, htrim, hquote, hcomma, hescape, hdefault⟩ := hchoice choice h
    exact ⟨hne, htrim, hquote, hcomma, hescape, fun hword => hdefault hword.isInfix⟩
  isBare := List.all_eq_true.mp (by decide)
  trimmed := rfl
  undashed := by decide

def tierBlockFirst : List Char :=
  "## @field \x7bmap[string][]string enum:\"[a],b c\"\x7d [Gpu.tier-1]=b - How fast".toList

def tierNameFirst : List Char :=
  "# @field [Gpu.tier-1] \x7bmap[string][]string enum:\"[a],b c\" default=b\x7d How fast".toList

theorem ofText_tierNameFirst :
    rowsAt 1 (ofText tierBlockFirst) =
      [⟨.field, ["Gpu", "tier-1"], "map[string][]string enum:\"[a],b c\"", ["[a]", "b c"], "b",
        "How fast", true, 1⟩] ∧
    ofText tierNameFirst =
      (ofText tierBlockFirst).reblock 1 "map[string][]string enum:\"[a],b c\" default=b" ∧
    TypeExpr.ofBlock "map[string][]string enum:\"[a],b c\" default=b" =
      .ok (.map (.array (.named "string"))) := by
  have hnew : lines tierBlockFirst =
      [] ++ tierSpelled.line 1 tierSpelled.blockFirst :: [] := by
    unfold tierBlockFirst
    rw [String.toList_ofList]
    decide
  have hold : lines tierNameFirst =
      [] ++ tierSpelled.line 0 tierSpelled.nameFirst :: [] := by
    unfold tierNameFirst
    rw [String.toList_ofList]
    decide
  have hrow : tierSpelled.row 1 (tierSpelled.block []) =
      ⟨.field, ["Gpu", "tier-1"], "map[string][]string enum:\"[a],b c\"", ["[a]", "b c"], "b",
        "How fast", true, 1⟩ := by decide
  have hblock : (tierSpelled.row 1 (tierSpelled.block tierSpelled.default)).typeBlock =
      "map[string][]string enum:\"[a],b c\" default=b" := by decide
  obtain ⟨hrows, -, hscan, -, htype⟩ := ofText_nameFirst tierSpelled 1 0 hnew hold
  rw [← hblock, ← hrow]
  exact ⟨hrows, hscan, htype⟩

end

end Scan

end AnnotatedValues.Annotation
