/-! # Blank characters, trimming and lines

Texts are walked as lists of characters. A character is blank when it has the Unicode property
White_Space; trimming removes blank characters from the ends and nothing else. -/
namespace AnnotatedValues.Text

/-- Unicode White_Space. -/
def isBlank (c : Char) : Bool :=
  let n := c.toNat
  (9 ≤ n && n ≤ 13) || n == 0x20 || n == 0x85 || n == 0xA0 || n == 0x1680 ||
    (0x2000 ≤ n && n ≤ 0x200A) || n == 0x2028 || n == 0x2029 || n == 0x202F || n == 0x205F ||
    n == 0x3000

def trimStart (cs : List Char) : List Char := cs.dropWhile isBlank

def trimEnd (cs : List Char) : List Char := (cs.reverse.dropWhile isBlank).reverse

def trim (cs : List Char) : List Char := trimEnd (trimStart cs)

@[simp] theorem trimEnd_nil : trimEnd [] = [] := rfl

theorem length_dropWhile_le {α : Type} (p : α → Bool) (xs : List α) :
    (xs.dropWhile p).length ≤ xs.length := by
  induction xs with
  | nil => exact Nat.le_refl _
  | cons x xs ih =>
    by_cases h : p x = true
    · simp only [List.dropWhile_cons, h, if_true, List.length_cons]; omega
    · simp only [List.dropWhile_cons, h, List.length_cons]; simp

theorem length_trimStart_le (cs : List Char) : (trimStart cs).length ≤ cs.length :=
  length_dropWhile_le isBlank cs

theorem length_trimEnd_le (cs : List Char) : (trimEnd cs).length ≤ cs.length := by
  have := length_dropWhile_le isBlank cs.reverse
  simpa [trimEnd] using this

theorem length_trim_le (cs : List Char) : (trim cs).length ≤ cs.length :=
  Nat.le_trans (length_trimEnd_le _) (length_trimStart_le cs)

/-- The text after a leading blank character, with all its leading blanks removed. -/
def afterBlank? : List Char → Option (List Char)
  | c :: cs => if isBlank c then some (trimStart cs) else none
  | [] => none

/-- The pieces between the characters that satisfy `p`: one more than there are such characters. -/
def splitBy (p : Char → Bool) : List Char → List (List Char)
  | [] => [[]]
  | c :: cs =>
    match splitBy p cs with
    | [] => [[]]
    | piece :: pieces => if p c then [] :: piece :: pieces else (c :: piece) :: pieces

theorem splitBy_ne_nil (p : Char → Bool) (cs : List Char) : splitBy p cs ≠ [] := by
  cases cs with
  | nil => simp [splitBy]
  | cons c cs => rw [splitBy]; split <;> (try split) <;> simp

/-- The lines of a text, without their line feeds. -/
def lines (cs : List Char) : List (List Char) := splitBy (· == '\n') cs

/-- The rest of `cs` behind `lead`, if `cs` starts with it. -/
def dropLead? : (lead cs : List Char) → Option (List Char)
  | [], cs => some cs
  | _ :: _, [] => none
  | l :: lead, c :: cs => if l == c then dropLead? lead cs else none

theorem eq_append_of_dropLead? {lead cs rest : List Char} (h : dropLead? lead cs = some rest) :
    cs = lead ++ rest := by
  induction lead generalizing cs with
  | nil => simpa [dropLead?] using h
  | cons l lead ih =>
    cases cs with
    | nil => simp [dropLead?] at h
    | cons c cs =>
      rw [dropLead?] at h
      split at h
      · rename_i hlc
        rw [beq_iff_eq.mp hlc, ih h]; rfl
      · cases h

/-- `sep` between the members of `pieces`. -/
def joined (sep : List Char) : List (List Char) → List Char
  | [] => []
  | [piece] => piece
  | piece :: pieces => piece ++ sep ++ joined sep pieces

end AnnotatedValues.Text
