import AnnotatedValues.Proofs.Annotation.Spellings
import AnnotatedValues.Proofs.Decimal.Text
import AnnotatedValues.Proofs.Document.Json

/-!
# Collections as defaults

The JSON text of a document is nested: brackets in strings stand in quotes, and
quotes in strings behind a backslash.  A collection behind the name of a
parameter is therefore its default as a whole, and what stands behind it is the
description.
-/

namespace AnnotatedValues

/-- An array or an object. -/
def Document.isCollection : Document → Bool
  | .array _ => true
  | .object _ => true
  | .null => false
  | .bool _ => false
  | .number _ => false
  | .string _ => false

namespace Annotation

open Text

/-! ## JSON texts -/

theorem isQuotable_escapeChar (c : Char) : IsQuotable (Json.escapeChar c) := by
  -- An escape is a backslash, a character, and maybe digits.
  have hescape : ∀ n < 0x20, (Json.escapeChar (Char.ofNat n)).head? = some '\\' ∧
      2 ≤ (Json.escapeChar (Char.ofNat n)).length ∧
      '"' ∉ (Json.escapeChar (Char.ofNat n)).drop 2 ∧
      '\\' ∉ (Json.escapeChar (Char.ofNat n)).drop 2 := by decide
  by_cases hplain : Json.IsPlain c
  · rw [Json.escapeChar_of_isPlain hplain]
    exact .plain hplain.1 hplain.2.1 .nil
  · by_cases hquote : c = '"'
    · rw [hquote]
      exact .escape .nil
    · by_cases hbackslash : c = '\\'
      · rw [hbackslash]
        exact .escape .nil
      · have hc := hescape c.toNat (Nat.not_le.mp fun hle => hplain ⟨hquote, hbackslash, hle⟩)
        rw [Char.ofNat_toNat] at hc
        obtain ⟨hhead, hlength, hquotes, hescapes⟩ := hc
        generalize Json.escapeChar c = text at hhead hlength hquotes hescapes
        match text, hhead, hlength with
        | _ :: d :: digits, hhead, _ =>
            cases hhead
            exact .escape (.of_not_mem hquotes hescapes)

theorem isQuotable_escape (cs : List Char) : IsQuotable (Json.escape cs) := by
  induction cs with
  | nil => exact .nil
  | cons c cs ih =>
      have hcons : Json.escape (c :: cs) = Json.escapeChar c ++ Json.escape cs := rfl
      rw [hcons]
      exact (isQuotable_escapeChar c).append ih

theorem nested_quoted (s : String) : Nested ownKind (Json.quoted s) :=
  .quoted (isQuotable_escape s.toList) .nil

theorem nested_joined {pairs : Char → Char → Bool} {pieces : List (List Char)}
    (h : ∀ piece ∈ pieces, Nested pairs piece) : Nested pairs (joined [','] pieces) := by
  induction pieces with
  | nil => exact .nil
  | cons piece pieces ih =>
      rw [List.forall_mem_cons] at h
      cases pieces with
      | nil => exact h.1
      | cons next pieces =>
          rw [joined_cons _ _ (List.cons_ne_nil _ _), List.append_assoc]
          exact h.1.append (.plain rfl (ih h.2))

theorem nested_numberText (n : Number) : Nested ownKind (Json.numberText n) := by
  have hplain : ∀ c ∈ Decimal.numerals, isPlain c = true := List.all_eq_true.mp (by decide)
  exact .of_plain fun c hc => hplain c (Json.numberText_subset n hc)

mutual

theorem nested_compact : (v : Document) → Nested ownKind (Json.compact v)
  | .null => .of_plain (List.all_eq_true.mp (by decide))
  | .bool true => .of_plain (List.all_eq_true.mp (by decide))
  | .bool false => .of_plain (List.all_eq_true.mp (by decide))
  | .number n => nested_numberText n
  | .string s => nested_quoted s
  | .array items => .bracketed rfl rfl rfl (nested_joined (nested_compactItems items)) .nil
  | .object entries => .bracketed rfl rfl rfl (nested_joined (nested_compactEntries entries)) .nil
termination_by structural v => v

theorem nested_compactItems : (items : List Document) →
    ∀ text ∈ Json.compactItems items, Nested ownKind text
  | [] => nofun
  | item :: items => List.forall_mem_cons.mpr ⟨nested_compact item, nested_compactItems items⟩
termination_by structural items => items

theorem nested_compactEntries : (entries : List (String × Document)) →
    ∀ text ∈ Json.compactEntries entries, Nested ownKind text
  | [] => nofun
  | (key, value) :: entries => List.forall_mem_cons.mpr
      ⟨(nested_quoted key).append (.plain rfl (nested_compact value)), nested_compactEntries entries⟩
termination_by structural entries => entries

end

/-- Whatever stands behind a collection, its text is taken as a whole. -/
theorem takeLiteral?_compact {v : Document} (hv : v.isCollection = true) (rest : List Char) :
    takeLiteral? (Json.compact v ++ rest) = some (Json.compact v, rest) := by
  cases v with
  | array items =>
      exact takeLiteral?_of_nested rfl rfl (nested_joined (nested_compactItems items)).anyKind rest
  | object entries =>
      exact takeLiteral?_of_nested rfl rfl (nested_joined (nested_compactEntries entries)).anyKind rest
  | null => cases hv
  | bool => cases hv
  | number => cases hv
  | string => cases hv

/-! ## Lines -/

/-- A parameter with a collection behind its name, and what stands behind it. -/
def collectionText (type name : List Char) (v : Document) (tail : List Char) : List Char :=
  '{' :: (type ++ '}' :: ' ' :: (name ++ '=' :: (Json.compact v ++ tail)))

def collectionLine (type name : List Char) (v : Document) (description : List Char) : List Char :=
  "## @param ".toList ++ collectionText type name v (" - ".toList ++ description)

section

variable {type name description : List Char} {t : TypeExpr} {v : Document}
  (hv : v.isCollection = true) (htype : TypeExpr.Written type t) (hname : IsPart name)
  (hdescription : trim description = description)

theorem collectionText_append (tail rest : List Char) :
    collectionText type name v (tail ++ rest) = collectionText type name v tail ++ rest := by
  simp [collectionText]

include hv htype hname in
theorem member?_collectionText {tail : List Char} (htail : description? tail = some description) :
    member? (collectionText type name v tail) =
      some ⟨name, false, type, Json.compact v, description⟩ := by
  have hbraced : takeBraced? (collectionText type name v tail) =
      some (type, ' ' :: (name ++ '=' :: (Json.compact v ++ tail))) :=
    takeBraced?_of_nested (nested_of_written htype) _
  have hmember : ∀ c ∈ name, isMemberChar c = true := fun c hc =>
    isMemberChar_of_isTypeChar (hname.chars c hc)
  have htake : takeName? (name ++ '=' :: (Json.compact v ++ tail)) =
      some (name, false, '=' :: (Json.compact v ++ tail)) :=
    takeName?_nameText false hname.ne_nil hmember fun c hc => Option.some.inj hc ▸ by decide
  have hblank : afterBlank? (' ' :: (name ++ '=' :: (Json.compact v ++ tail))) =
      some (name ++ '=' :: (Json.compact v ++ tail)) := by
    refine congrArg some (trimStart_eq_self fun c hc => ?_)
    rw [List.head?_append_of_ne_nil _ hname.ne_nil] at hc
    exact isBlank_of_isMemberChar (hmember c (List.mem_of_mem_head? hc))
  rw [member?, blockFirst?_eq hbraced hblank htake (takeLiteral?_compact hv tail), htail]
  rfl

include hdescription in
theorem description?_behindDash :
    description? (" -".toList ++ spaced description) = some description := by
  cases description with
  | nil => rfl
  | cons c rest => exact description?_dashed (trim_eq_self_iff.mp hdescription)

include hdescription in
theorem isBlank_getLast?_behindDash :
    ∀ c ∈ (" -".toList ++ spaced description).getLast?, isBlank c = false :=
  isBlank_getLast?_append (fun _ hc => Option.some.inj hc ▸ rfl)
    (isBlank_getLast?_spaced (trim_eq_self_iff.mp hdescription))

include hdescription in
theorem trimmed_collectionText :
    Trimmed (collectionText type name v (" -".toList ++ spaced description)) where
  head := fun c hc => Option.some.inj hc ▸ rfl
  last := by
    have hsplit : collectionText type name v (" -".toList ++ spaced description) =
        collectionText type name v [] ++ (" -".toList ++ spaced description) :=
      collectionText_append [] _
    rw [hsplit, List.getLast?_append_of_ne_nil _ (List.append_ne_nil_of_left_ne_nil (by decide) _)]
    exact isBlank_getLast?_behindDash hdescription

include hdescription in
theorem trim_collectionLine :
    trim (collectionLine type name v description) =
      "## @param ".toList ++ collectionText type name v (" -".toList ++ spaced description) := by
  have hline : Trimmed ("## @param ".toList ++
      collectionText type name v (" -".toList ++ spaced description)) :=
    .append (by decide) (List.cons_ne_nil '{' _) (fun _ hc => Option.some.inj hc ▸ rfl)
      (trimmed_collectionText hdescription).last
  cases description with
  | nil =>
      have hblank : collectionText type name v " - ".toList =
          collectionText type name v " -".toList ++ [' '] :=
        collectionText_append " -".toList [' ']
      have hnil : collectionLine type name v [] =
          "## @param ".toList ++ collectionText type name v " -".toList ++ [' '] :=
        (congrArg ("## @param ".toList ++ ·) hblank).trans (List.append_assoc _ _ _).symm
      rw [hnil, trim_append_blanks (isBlanks_cons rfl isBlanks_nil)]
      exact trim_eq_self_iff.mpr hline
  | cons c rest =>
      have hcons : collectionLine type name v (c :: rest) = "## @param ".toList ++
          collectionText type name v (" -".toList ++ spaced (c :: rest)) := rfl
      rw [hcons, trim_eq_self_iff.mpr hline]

include hv htype hname hdescription in
theorem ofLine?_collectionLine :
    Directive.ofLine? (collectionLine type name v description) =
      some (.param ⟨name, false, type, Json.compact v, description⟩) := by
  have hword : ∀ c ∈ "param".toList, isBlank c = false := fun c hc =>
    isBlank_of_isWord (List.all_eq_true.mp (by decide) c hc)
  have hsigns : Directive.ofLine? (trim (collectionLine type name v description)) =
      directive? "param".toList (collectionText type name v (" -".toList ++ spaced description)) := by
    rw [trim_collectionLine hdescription]
    exact Directive.ofLine?_signs 1 hword (List.cons_ne_nil _ _) (trimmed_collectionText hdescription)
  have htrim : Directive.ofLine? (collectionLine type name v description) =
      Directive.ofLine? (trim (collectionLine type name v description)) := by
    rw [Directive.ofLine?, Directive.ofLine?, trim_trim]
  rw [htrim, hsigns]
  change (member? (collectionText type name v (" -".toList ++ spaced description))).map
    Directive.param = _
  rw [member?_collectionText hv htype hname (description?_behindDash hdescription)]
  rfl

/-- The row of a parameter with a collection as its default. -/
def collectionRow (n : Nat) (type name : List Char) (v : Document) (description : List Char) : Row where
  kind := .param
  path := [String.ofList name]
  typeBlock := String.ofList (trim type)
  choices := []
  default := v.json
  description := String.ofList description
  optional := false
  line := n

theorem memberRow_collection (htype : TypeExpr.Written type t) (hv : v.isCollection = true) (n : Nat) :
    Scan.memberRow n .param [String.ofList name] ⟨name, false, type, Json.compact v, description⟩ =
      collectionRow n type name v description := by
  have hquote : '"' ∉ type := htype.not_mem rfl (by decide) (by decide)
  have hchoices : blockChoices type = [] := by
    rw [blockChoices, lastAttribute?, attributesOf, attributesFrom_eq_nil hquote]
    rfl
  have hnonempty : (Json.compact v).isEmpty = false := by
    cases v <;> first | rfl | cases hv
  rw [Scan.memberRow, hchoices, hnonempty]
  rfl

end

/-- A collection as a default is captured whole: its text is the literal at the start of any text
that it begins, and on a line with a description behind it, it is the default of the row. -/
theorem rowsAt_collectionLine {v : Document} (hv : v.isCollection = true) :
    (∀ rest, takeLiteral? (Json.compact v ++ rest) = some (Json.compact v, rest)) ∧
      ∀ {type name description text : List Char} {t : TypeExpr} {before after : List (List Char)},
        TypeExpr.Written type t → IsPart name → trim description = description →
        lines text = before ++ collectionLine type name v description :: after →
        Scan.rowsAt (before.length + 1) (Scan.ofText text) =
          [collectionRow (before.length + 1) type name v description] := by
  refine ⟨takeLiteral?_compact hv, ?_⟩
  intro type name description text t before after htype hname hdescription hlines
  have hline := ofLine?_collectionLine hv htype hname hdescription
  rw [Scan.rowsAt_ofText hlines hline]
  exact congrArg (fun row => [row]) (memberRow_collection htype hv _)

/-- Brackets, quotes and backslashes in strings and keys, and number and equals signs. -/
def markedCollection : Document :=
  .object [("a\x7d\"\\", .array [.string "# @param [=\\\"", .number (.int (-12)), .object []])]

def markedText : List Char :=
  "\x7b\"a\x7d\\\"\\\\\":[\"# @param [=\\\\\\\"\",-12,\x7b\x7d]\x7d".toList

def markedFile : List Char :=
  "# Ports\n## @param \x7b map[string][]int\x7d x-1=".toList ++
    (markedText ++ " - -1 or [\x7b\nx-1: \x7b\x7d\n".toList)

theorem rowsAt_markedFile :
    Json.compact markedCollection = markedText ∧
      takeLiteral? (Json.compact markedCollection ++ "]\x7d\"".toList) =
        some (Json.compact markedCollection, "]\x7d\"".toList) ∧
      Scan.rowsAt 2 (Scan.ofText markedFile) =
        [⟨.param, ["x-1"], "map[string][]int", [], String.ofList markedText, "-1 or [\x7b", false, 2⟩] := by
  have hlines : lines markedFile =
      ["# Ports".toList] ++ collectionLine " map[string][]int".toList "x-1".toList markedCollection
        "-1 or [\x7b".toList :: ["x-1: \x7b\x7d".toList, []] := by decide +kernel
  have htype : TypeExpr.Written " map[string][]int".toList (.map (.array (.named "int"))) :=
    TypeExpr.parseFrom_eq_ok_iff.mp (by decide +kernel)
  have hname : IsPart "x-1".toList := ⟨by decide, List.all_eq_true.mp (by decide)⟩
  obtain ⟨htake, hrows⟩ := rowsAt_collectionLine (v := markedCollection) rfl
  refine ⟨by decide +kernel, htake _, (hrows htype hname rfl hlines).trans ?_⟩
  decide +kernel

end Annotation

end AnnotatedValues
