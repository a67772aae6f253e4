import AnnotatedValues.Schema.Compile
import AnnotatedValues.Yaml.Plain

/-!
# Numbers in YAML

A decimal number is the same number as a plain scalar, with two exceptions:
behind a leading zero digits are text, and what is written as an integer is
never a number with a point.
-/

namespace AnnotatedValues.Yaml.Plain

open Decimal Resolver

variable {cs ds : List Char} {n : Nat}

/-! ## Digits -/

theorem isDecimalDigit_of_digitValue? {c : Char} {digit : Nat} (h : digitValue? 10 c = some digit) :
    isDecimalDigit c = true := by
  obtain ⟨hvalue, hlt⟩ := Option.filter_eq_some_iff.mp h
  have hsmall : digit < 10 := of_decide_eq_true hlt
  split at hvalue
  · assumption
  · split at hvalue
    · have := Option.some.inj hvalue
      omega
    · split at hvalue
      · have := Option.some.inj hvalue
        omega
      · cases hvalue

theorem isDecimalDigit_of_readDigits? {value : Nat} (h : readDigits? 10 value cs = some n) :
    ∀ c ∈ cs, isDecimalDigit c = true := by
  induction cs generalizing value with
  | nil => exact fun c hc => absurd hc List.not_mem_nil
  | cons c cs ih =>
      rw [readDigits?] at h
      split at h
      · rename_i digit hdigit
        exact List.forall_mem_cons.mpr ⟨isDecimalDigit_of_digitValue? hdigit, ih h⟩
      · cases h

theorem isDecimalDigit_of_readNat? (h : readNat? 10 cs = some n) :
    ∀ c ∈ cs, isDecimalDigit c = true := by
  unfold readNat? at h
  split at h
  · cases h
  · exact isDecimalDigit_of_readDigits? h

/-- A sign is no digit, nor is the mark of another base. -/
theorem readNat?_eq_none {c : Char} (hc : c ∈ ['+', '-', 'x', 'o', 'b']) (hmem : c ∈ cs) :
    readNat? 10 cs = none := by
  have hno : ∀ c ∈ ['+', '-', 'x', 'o', 'b'], (isDecimalDigit c == false) = true :=
    List.all_eq_true.mp (by decide)
  cases hread : readNat? 10 cs with
  | none => rfl
  | some n =>
      have hdigit := isDecimalDigit_of_readNat? hread c hmem
      rw [beq_iff_eq.mp (hno c hc)] at hdigit
      cases hdigit

theorem based?_of_readNat? (h : readNat? 10 ds = some n) : based? ds = none := by
  have hdigit := isDecimalDigit_of_readNat? h
  unfold based?
  split
  · cases hdigit 'x' (by simp)
  · cases hdigit 'o' (by simp)
  · cases hdigit 'b' (by simp)
  · rfl

/-- Digits start with one. -/
theorem exists_cons_of_readNat? (h : readNat? 10 ds = some n) :
    ∃ c rest, ds = c :: rest ∧ c ≠ '+' ∧ c ≠ '-' := by
  cases ds with
  | nil => cases h
  | cons c rest =>
      have hdigit := isDecimalDigit_of_readNat? h c List.mem_cons_self
      refine ⟨c, rest, rfl, ?_, ?_⟩
      · rintro rfl
        cases hdigit
      · rintro rfl
        cases hdigit

/-- A sign before digits makes no difference to the zeros behind it. -/
theorem isZeroPadded_sign (h : readNat? 10 ds = some n) :
    ∀ sign ∈ ['-', '+'], isZeroPadded (sign :: ds) = isZeroPadded ds := by
  obtain ⟨c, rest, rfl, hplus, hminus⟩ := exists_cons_of_readNat? h
  simp [isZeroPadded, hplus, hminus]

/-! ## Integers -/

theorem unsigned?_of_readNat? (h : readNat? 10 ds = some n) :
    unsigned? ds = if isZeroPadded ds then none else some n := by
  have hbased := based?_of_readNat? h
  obtain ⟨c, rest, rfl, hplus, -⟩ := exists_cons_of_readNat? h
  simp [unsigned?, hplus, hbased, h]

theorem unsigned?_plus (h : readNat? 10 ds = some n) :
    unsigned? ('+' :: ds) = if isZeroPadded ('+' :: ds) then none else some n := by
  simp [unsigned?, based?_of_readNat? h, h]

theorem unsigned?_minus (ds : List Char) : unsigned? ('-' :: ds) = none := by
  have hread : readNat? 10 ('-' :: ds) = none := readNat?_eq_none (by decide) List.mem_cons_self
  simp [unsigned?, based?, hread]

theorem negative?_minus (h : readNat? 10 ds = some n) :
    negative? ('-' :: ds) = if isZeroPadded ('-' :: ds) then none else some n := by
  have hsign := isZeroPadded_sign h '-' (by decide)
  simp [negative?, based?_of_readNat? h, h, hsign]

theorem negative?_of_readNat? (h : readNat? 10 ds = some n) : negative? ds = none := by
  obtain ⟨c, rest, rfl, -, hminus⟩ := exists_cons_of_readNat? h
  simp [negative?, hminus]

/-- An integer is written as digits, maybe behind a sign. -/
theorem readInt?_cases {i : Int} (h : readInt? cs = some i) :
    (∃ ds, ∃ n : Nat, cs = '-' :: ds ∧ readNat? 10 ds = some n ∧ i = -(n : Int)) ∨
      (∃ ds, ∃ n : Nat, cs = '+' :: ds ∧ readNat? 10 ds = some n ∧ i = n) ∨
        ∃ n : Nat, readNat? 10 cs = some n ∧ i = n := by
  unfold readInt? at h
  cases hsplit : splitSign cs with
  | mk negative digits =>
      rw [hsplit] at h
      obtain ⟨_, hnumber, rfl⟩ := Option.map_eq_some_iff.mp h
      obtain ⟨n, hn, hcast⟩ := Option.bind_eq_some_iff.mp hnumber
      cases hcast
      unfold splitSign at hsplit
      split at hsplit
      · cases hsplit
        exact Or.inl ⟨_, n, rfl, hn, rfl⟩
      · cases hsplit
        exact Or.inr (Or.inl ⟨_, n, rfl, hn, rfl⟩)
      · cases hsplit
        exact Or.inr (Or.inr ⟨n, hn, rfl⟩)

/-- An integer of 64 bits is the same integer, unless zeros stand before it. -/
theorem int?_of_readInt64? {i : Int} (h : readInt64? cs = some i) :
    int? cs = if isZeroPadded cs then none else some (.int i) := by
  obtain ⟨hread, hrange⟩ := Option.filter_eq_some_iff.mp h
  simp only [Bool.and_eq_true, decide_eq_true_eq, Int.ofNat_eq_natCast] at hrange
  have hless : Nat.pow 2 63 < Nat.pow 2 64 := by decide
  rcases readInt?_cases hread with ⟨ds, n, rfl, hn, rfl⟩ | ⟨ds, n, rfl, hn, rfl⟩ | ⟨n, hn, rfl⟩
  · have hsmall : n ≤ Nat.pow 2 63 := by omega
    rw [int?, unsigned?_minus, negative?_minus hn]
    cases isZeroPadded ('-' :: ds) with
    | true => rfl
    | false => exact if_pos hsmall
  · have hsmall : n < Nat.pow 2 64 := by omega
    rw [int?, unsigned?_plus hn]
    cases isZeroPadded ('+' :: ds) with
    | true => rfl
    | false => exact if_pos hsmall
  · have hsmall : n < Nat.pow 2 64 := by omega
    rw [int?, unsigned?_of_readNat? hn, negative?_of_readNat? hn]
    cases isZeroPadded cs with
    | true => rfl
    | false => exact if_pos hsmall

/-! ## Numbers with a point -/

/-- The names of infinities, maybe behind a sign, and of what is no number. -/
def specialNames : List (List Char) :=
  [".inf", ".Inf", ".INF", "+.inf", "+.Inf", "+.INF", "-.inf", "-.Inf", "-.INF"].map String.toList ++
    [".nan".toList, ".NaN".toList, ".NAN".toList]

theorem mem_specialNames_of_isInfinity (h : isInfinity cs = true) :
    cs ∈ specialNames ∧ '+' :: cs ∈ specialNames ∧ '-' :: cs ∈ specialNames := by
  have hall : ∀ w ∈ [".inf".toList, ".Inf".toList, ".INF".toList],
      w ∈ specialNames ∧ '+' :: w ∈ specialNames ∧ '-' :: w ∈ specialNames := by decide
  exact hall cs (List.contains_iff_mem.mp h)

theorem readBinary64?_specialNames : ∀ w ∈ specialNames, readBinary64? w = none := by
  decide +kernel

theorem readBinary64?_two_signs {second : Char} (h : second ∈ ['+', '-']) (cs : List Char) :
    readBinary64? ('+' :: second :: cs) = none := by
  simp only [List.mem_cons, List.not_mem_nil, or_false] at h
  rcases h with rfl | rfl <;> rfl

theorem readBinary64?_plus (hplus : ∀ tail, cs ≠ '+' :: tail) (hminus : ∀ tail, cs ≠ '-' :: tail) :
    readBinary64? ('+' :: cs) = readBinary64? cs := by
  have hsign : splitSign cs = (false, cs) := by
    unfold splitSign
    split
    · exact absurd rfl (hminus _)
    · exact absurd rfl (hplus _)
    · rfl
  simp only [readBinary64?, hsign]
  rfl

theorem mem_specialNames_of_float? (h : float? cs = some .special) : cs ∈ specialNames := by
  revert h
  fun_cases float? cs with
  | case1 => exact nofun
  | case2 unsigned? rest hunsigned negated hspecial =>
      intro _
      have hrest : cs = rest ∨ cs = '+' :: rest := by
        simp only [unsigned?] at hunsigned
        split at hunsigned <;> cases hunsigned
        · exact Or.inr rfl
        · exact Or.inl rfl
      rcases (Bool.or_eq_true _ _).mp hspecial with hinfinity | hnan
      · rcases (Bool.or_eq_true _ _).mp hinfinity with hplain | hnegated
        · obtain ⟨hbare, hplus, -⟩ := mem_specialNames_of_isInfinity hplain
          rcases hrest with rfl | rfl
          · exact hbare
          · exact hplus
        · simp only [negated] at hnegated
          split at hnegated
          · exact (mem_specialNames_of_isInfinity hnegated).2.2
          · cases hnegated
      · exact List.mem_append_right _ (List.contains_iff_mem.mp hnan)
  | case3 _ rest =>
      intro h
      obtain ⟨_, -, hfloat⟩ := Option.map_eq_some_iff.mp h
      cases hfloat

/-- Without a second sign, and if it is no name, a text is the number that it is without its
plus. -/
theorem float?_eq_map (hsigns : ∀ second ∈ ['+', '-'], ∀ tail, cs ≠ '+' :: second :: tail)
    (hname : float? cs ≠ some .special) : float? cs = (readBinary64? cs).map .float := by
  revert hname
  fun_cases float? cs with
  | case1 unsigned? hunsigned =>
      simp only [unsigned?] at hunsigned
      split at hunsigned <;> cases hunsigned
      · exact absurd rfl (hsigns '+' (by decide) _)
      · exact absurd rfl (hsigns '-' (by decide) _)
  | case2 => exact fun hname => absurd rfl hname
  | case3 unsigned? rest hunsigned =>
      intro _
      simp only [unsigned?] at hunsigned
      split at hunsigned <;> cases hunsigned
      · rename_i hplus hminus _ _
        rw [readBinary64?_plus hplus hminus]
      · rfl

/-- The reading of a number with a point, which is neither behind two signs nor a name. -/
theorem float?_of_readBinary64? {x : Binary64} (h : readBinary64? cs = some x) :
    float? cs = some (.float x) := by
  have hsigns : ∀ second ∈ ['+', '-'], ∀ tail, cs ≠ '+' :: second :: tail := by
    rintro second hsecond tail rfl
    rw [readBinary64?_two_signs hsecond] at h
    cases h
  have hname : float? cs ≠ some .special := fun hspecial => by
    rw [readBinary64?_specialNames cs (mem_specialNames_of_float? hspecial)] at h
    cases h
  rw [float?_eq_map hsigns hname, h]
  rfl

/-! ## Readings of numbers -/

/-- The spellings of null and of truth values. -/
def namedSpellings : List (List Char) :=
  [[], "null".toList, "Null".toList, "NULL".toList, ['~'], "true".toList, "True".toList,
    "TRUE".toList, "false".toList, "False".toList, "FALSE".toList]

theorem isSome_read_namedSpellings :
    ∀ w ∈ namedSpellings, (readInt? w).isSome = false ∧ (readBinary64? w).isSome = false := by
  decide +kernel

/-- Of a number it is first asked whether it is an integer. -/
theorem ofText_eq_of_number (h : (readInt? cs).isSome = true ∨ (readBinary64? cs).isSome = true) :
    ofText cs =
      match int? cs with
      | some plain => plain
      | none => if isZeroPadded cs then .text else (float? cs).getD .text := by
  have hne : ∀ w ∈ namedSpellings, cs ≠ w := by
    rintro _ hw rfl
    obtain ⟨hint, hfloat⟩ := isSome_read_namedSpellings _ hw
    rw [hint, hfloat] at h
    exact Bool.false_ne_true (h.elim id id)
  simp only [namedSpellings, List.forall_mem_cons, List.not_mem_nil, false_implies, implies_true,
    and_true, String.reduceToList] at hne
  have hnull : (cs.isEmpty || isNull cs) = false := by simp [isNull, hne]
  have hbool : bool? cs = none := by simp [bool?, hne]
  rw [ofText, hnull, hbool]
  rfl

theorem ofText_of_readInt64? {i : Int} (h : readInt64? cs = some i) :
    ofText cs = if isZeroPadded cs then .text else .int i := by
  have hread : readInt? cs = some i := (Option.filter_eq_some_iff.mp h).1
  rw [ofText_eq_of_number (Or.inl (hread ▸ rfl)), int?_of_readInt64? h]
  cases hpadded : isZeroPadded cs with
  | true => rfl
  | false => rfl

/-- What is written as an integer is none of the numbers with a point. -/
theorem int?_ne_float (cs : List Char) (x : Binary64) : int? cs ≠ some (.float x) := by
  unfold int?
  split
  · split
    · simp
    · split <;> simp
  · split
    · simp
    · split <;> simp
  · simp

theorem ofText_eq_float_iff {x : Binary64} (h : readBinary64? cs = some x) :
    ofText cs = .float x ↔ int? cs = none ∧ isZeroPadded cs = false := by
  rw [ofText_eq_of_number (Or.inr (h ▸ rfl)), float?_of_readBinary64? h]
  cases hint : int? cs with
  | some plain =>
      have hne := int?_ne_float cs x
      rw [hint] at hne
      simpa using hne
  | none => cases hpadded : isZeroPadded cs <;> simp

end AnnotatedValues.Yaml.Plain
