import AnnotatedValues.Proofs.Decimal.Digits
import AnnotatedValues.Proofs.Graph.Texts
import AnnotatedValues.Proofs.Resolved.Resolution
import Mathlib.Data.Bool.AllAny

/-!
# Identifiers without blanks

A name holds no space and no line feed, and neither does what an identifier is
made of: its parts with a capital at the start, a lead and a number.
-/

namespace AnnotatedValues

/-! ## Unbroken texts -/

namespace Text

/-- What ends the words of a line, or the line. -/
def breaks : List Char := [' ', '\n']

/-- A text without such characters. -/
def Unbroken (cs : List Char) : Prop := ∀ c ∈ cs, c ∉ breaks

instance (cs : List Char) : Decidable (Unbroken cs) :=
  decidable_of_iff (cs.all fun c => c ∉ breaks) List.all_iff_forall_prop

theorem unbroken_append {cs ds : List Char} :
    Unbroken (cs ++ ds) ↔ Unbroken cs ∧ Unbroken ds := List.forall_mem_append

theorem unbroken_cons {c : Char} {cs : List Char} :
    Unbroken (c :: cs) ↔ c ∉ breaks ∧ Unbroken cs := List.forall_mem_cons

theorem unbroken_nil : Unbroken [] := fun _ h => by cases h

theorem Unbroken.not_mem {cs : List Char} (h : Unbroken cs) {c : Char} (hc : c ∈ breaks) : c ∉ cs :=
  fun hmem => h c hmem hc

theorem Unbroken.newline_not_mem {cs : List Char} (h : Unbroken cs) : '\n' ∉ cs :=
  h.not_mem (by decide)

/-- Codes behind the space that are not those of small letters of ASCII. -/
def IsUpperCode (n : Nat) : Prop := 32 < n ∧ (n < 97 ∨ 122 < n)

instance (n : Nat) : Decidable (IsUpperCode n) :=
  inferInstanceAs (Decidable (32 < n ∧ (n < 97 ∨ 122 < n)))

theorem isUpperCode_mapByRuns {runs : List CaseRun}
    (hruns : ∀ run ∈ runs, 32 < (run.first : Int) + run.offset ∧
      ((run.last : Int) + run.offset < 97 ∨ 122 < (run.first : Int) + run.offset))
    {n : Nat} (hn : 122 < n) : IsUpperCode (mapByRuns n runs) := by
  induction runs with
  | nil =>
      rw [mapByRuns]
      exact ⟨by omega, Or.inr hn⟩
  | cons run runs ih =>
      rw [mapByRuns]
      split
      · rename_i hrun
        simp only [Bool.and_eq_true, decide_eq_true_eq] at hrun
        have hcode := hruns run List.mem_cons_self
        unfold IsUpperCode
        omega
      · exact ih fun r hr => hruns r (List.mem_cons_of_mem run hr)

/-- A character that starts or goes on with a word in upper case. -/
def IsUpperChar (c : Char) : Prop := c ∉ breaks ∧ c.isLower = false

instance (c : Char) : Decidable (IsUpperChar c) :=
  inferInstanceAs (Decidable (c ∉ breaks ∧ c.isLower = false))

theorem IsUpperCode.isUpperChar {n : Nat} (h : IsUpperCode n) : IsUpperChar (Char.ofNat n) := by
  have hcode : (Char.ofNat n).toNat = n ∨ (Char.ofNat n).toNat = 0 := by
    unfold Char.ofNat
    by_cases hvalid : n.isValidChar
    · rw [dif_pos hvalid]
      exact Or.inl rfl
    · rw [dif_neg hvalid]
      exact Or.inr rfl
  have hspace : ' '.toNat = 32 := rfl
  have hnewline : '\n'.toNat = 10 := rfl
  unfold IsUpperCode at h
  constructor
  · simp only [breaks, List.mem_cons, List.not_mem_nil, or_false]
    rintro (hbreak | hbreak)
    · rw [hbreak] at hcode
      omega
    · rw [hbreak] at hcode
      omega
  · refine Bool.eq_false_iff.mpr fun hlower => ?_
    unfold Char.isLower at hlower
    simp only [Bool.and_eq_true, decide_eq_true_eq] at hlower
    have hfirst : 97 ≤ (Char.ofNat n).toNat := UInt32.le_iff_toNat_le.mp hlower.1
    have hlast : (Char.ofNat n).toNat ≤ 122 := UInt32.le_iff_toNat_le.mp hlower.2
    omega

/-- The upper case of a character is a word of upper case, unless the character breaks one. -/
theorem isUpperChar_upperChar {c : Char} (hc : c ∉ breaks) :
    upperChar c ≠ [] ∧ ∀ d ∈ upperChar c, IsUpperChar d := by
  have hascii : ∀ n < 128, Char.ofNat n ∉ breaks → IsUpperChar (Char.ofNat n).toUpper := by
    decide +kernel
  have hsequences : ∀ entry ∈ upperSequences, entry.2 ≠ [] ∧ ∀ n ∈ entry.2, IsUpperCode n := by
    decide
  have hruns : ∀ run ∈ upperRuns, 32 < (run.first : Int) + run.offset ∧
      ((run.last : Int) + run.offset < 97 ∨ 122 < (run.first : Int) + run.offset) := by
    decide +kernel
  unfold upperChar
  split
  · rename_i hlow
    have hupper := hascii c.toNat hlow
    rw [Char.ofNat_toNat] at hupper
    exact ⟨List.cons_ne_nil _ _, List.forall_mem_singleton.mpr (hupper hc)⟩
  · rename_i hhigh
    split
    · rename_i sequence hlookup
      obtain ⟨before, after, hsplit, -⟩ := List.lookup_eq_some_iff.mp hlookup
      have hmem : (c.toNat, sequence) ∈ upperSequences := by
        rw [hsplit]
        exact List.mem_append_right _ List.mem_cons_self
      obtain ⟨hne, hcodes⟩ := hsequences _ hmem
      refine ⟨fun hnil => hne (List.map_eq_nil_iff.mp hnil), fun d hd => ?_⟩
      obtain ⟨n, hn, rfl⟩ := List.mem_map.mp hd
      exact (hcodes n hn).isUpperChar
    · exact ⟨List.cons_ne_nil _ _, List.forall_mem_singleton.mpr
        (isUpperCode_mapByRuns hruns (by omega)).isUpperChar⟩

theorem upperChar_of_mem_breaks {c : Char} (hc : c ∈ breaks) : upperChar c = [c] := by
  rcases List.mem_pair.mp hc with rfl | rfl <;> rfl

/-- Upper case has no small letters of ASCII. -/
theorem isLower_of_mem_upperChar {c d : Char} (h : d ∈ upperChar c) : d.isLower = false := by
  have hbreaks : ∀ c ∈ breaks, c.isLower = false := List.all_iff_forall_prop.mp (by decide)
  by_cases hc : c ∈ breaks
  · rw [upperChar_of_mem_breaks hc, List.mem_singleton] at h
    exact h ▸ hbreaks c hc
  · exact ((isUpperChar_upperChar hc).2 d h).2

theorem upperChar_ne_nil (c : Char) : upperChar c ≠ [] := by
  by_cases hc : c ∈ breaks
  · rw [upperChar_of_mem_breaks hc]
    exact List.cons_ne_nil c []
  · exact (isUpperChar_upperChar hc).1

theorem unbroken_capitalized {cs : List Char} (h : Unbroken cs) : Unbroken (capitalized cs) := by
  cases cs with
  | nil => exact h
  | cons c cs =>
      rw [unbroken_cons] at h
      exact unbroken_append.mpr ⟨fun d hd => ((isUpperChar_upperChar h.1).2 d hd).1, h.2⟩

end Text

theorem Annotation.Scan.IsName.unbroken {name : String} (h : Annotation.Scan.IsName name) :
    Text.Unbroken name.toList := by
  have hbreaks : ∀ c ∈ Text.breaks, Annotation.isMemberChar c = false :=
    List.all_iff_forall_prop.mp (by decide)
  intro c hc hbreak
  exact Bool.false_ne_true ((hbreaks c hbreak).symm.trans (h c hc))

/-! ## Numbers -/

namespace Decimal

open Text

theorem unbroken_natText (n : Nat) : Unbroken (natText n) := by
  have hdigits : ∀ d < 10, Unbroken [digitChar d] := by decide
  intro c hc
  obtain ⟨digit, hdigit, rfl⟩ := exists_digit_of_mem_natText hc
  exact hdigits digit hdigit _ List.mem_cons_self

end Decimal

/-! ## Identifiers -/

namespace Identifier

open Text

theorem unbroken_camelChars {cs : List Char} (h : Unbroken cs) : Unbroken (camelChars cs) := by
  intro c hc
  obtain ⟨piece, hpiece, hc⟩ := List.mem_flatMap.mp hc
  have hunbroken : Unbroken piece := fun d hd => h d (mem_of_mem_splitBy hpiece hd).1
  exact unbroken_capitalized hunbroken c hc

/-- What a camel-cased name starts with is in upper case if it has case. -/
theorem isLower_head_camelChars {cs rest : List Char} {c : Char} (h : camelChars cs = c :: rest) :
    c.isLower = false := by
  unfold camelChars at h
  generalize splitBy isJoint cs = pieces at h
  induction pieces with
  | nil => cases h
  | cons piece pieces ih =>
      cases piece with
      | nil => exact ih h
      | cons d ds =>
          obtain ⟨u, us, hword⟩ := List.exists_cons_of_ne_nil (upperChar_ne_nil d)
          rw [List.flatMap_cons, capitalized, hword] at h
          rw [← (List.cons.inj h).1]
          exact isLower_of_mem_upperChar (hword ▸ List.mem_cons_self)

/-- An identifier starts with a capital of ASCII. -/
def IsCapital (ident : String) : Prop := ∃ c cs, ident.toList = c :: cs ∧ c.isUpper = true

theorem isCapital_ofList {c : Char} (hc : c.isUpper = true) (cs : List Char) :
    IsCapital (String.ofList (c :: cs)) := ⟨c, cs, String.toList_ofList, hc⟩

theorem IsCapital.append {base : String} (h : IsCapital base) (tail : String) :
    IsCapital (base ++ tail) := by
  obtain ⟨c, cs, hbase, hc⟩ := h
  exact ⟨c, cs ++ tail.toList, by rw [String.toList_append, hbase, List.cons_append], hc⟩

theorem IsCapital.free {base : String} (h : IsCapital base) (taken : List String) :
    IsCapital (free taken base) := by
  rcases free_eq taken base with hfree | ⟨n, hfree⟩
  · rwa [hfree]
  · rw [hfree]
    exact h.append _

theorem isCapital_withLetter {lead : Char} (hlead : lead.isUpper = true) (name : String) :
    IsCapital (withLetter lead name) := by
  unfold withLetter
  split
  · rename_i c cs hchars
    split
    · rename_i hletter
      unfold Char.isAlpha at hletter
      rw [isLower_head_camelChars hchars, Bool.or_false] at hletter
      exact isCapital_ofList hletter cs
    · exact isCapital_ofList hlead _
  · exact isCapital_ofList hlead []

theorem isCapital_collisionLead : IsCapital collisionLead :=
  isCapital_ofList (c := 'V') (by decide) _

theorem isCapital_ofGraph {g : TypeGraph} : ∀ entry ∈ ofGraph g, IsCapital entry.2 := by
  intro entry hentry
  obtain ⟨node, -, lead, hlead, taken, hfree⟩ := exists_free_of_mem_ofGraph hentry
  have hname : IsCapital (withLetter 'T' node.name) := isCapital_withLetter (by decide) _
  rw [hfree]
  refine IsCapital.free ?_ taken
  rcases List.mem_pair.mp hlead with rfl | rfl
  · rwa [String.empty_append]
  · exact isCapital_collisionLead.append _

/-- An identifier starts with a capital of ASCII, and nothing breaks it. -/
structure IsSpelled (ident : String) : Prop where
  letter : ∃ c cs, ident.toList = c :: cs ∧ c.isUpper = true
  unbroken : Unbroken ident.toList

theorem IsSpelled.append {base tail : String} (h : IsSpelled base) (htail : Unbroken tail.toList) :
    IsSpelled (base ++ tail) := by
  refine ⟨IsCapital.append h.letter tail, ?_⟩
  rw [String.toList_append]
  exact unbroken_append.mpr ⟨h.unbroken, htail⟩

theorem unbroken_withLetter {lead : Char} (hlead : lead ∉ breaks) {name : String}
    (h : Unbroken name.toList) : Unbroken (withLetter lead name).toList := by
  have hcamel := unbroken_camelChars h
  unfold withLetter
  split
  · rename_i c cs hchars
    rw [hchars] at hcamel
    rw [String.toList_ofList]
    split
    · exact hcamel
    · exact unbroken_cons.mpr ⟨hlead, hcamel⟩
  · rw [String.toList_ofList]
    exact unbroken_cons.mpr ⟨hlead, unbroken_nil⟩

theorem isSpelled_withLetter {lead : Char} (hlead : lead.isUpper = true) {name : String}
    (h : Unbroken name.toList) : IsSpelled (withLetter lead name) := by
  have hbreaks : ∀ d ∈ breaks, d.isUpper = false := List.all_iff_forall_prop.mp (by decide)
  refine ⟨isCapital_withLetter hlead name, unbroken_withLetter (fun hbreak => ?_) h⟩
  exact Bool.false_ne_true ((hbreaks lead hbreak).symm.trans hlead)

example : withLetter 'X' "2nd-size" = "X2ndSize" := by decide

theorem IsSpelled.numbered {base : String} (h : IsSpelled base) (n : Nat) :
    IsSpelled (numbered base n) := by
  refine h.append ?_
  rw [String.toList_ofList]
  exact Decimal.unbroken_natText n

theorem IsSpelled.free {base : String} (h : IsSpelled base) (taken : List String) :
    IsSpelled (free taken base) := by
  rcases free_eq taken base with hfree | ⟨n, hfree⟩
  · rwa [hfree]
  · rw [hfree]
    exact h.numbered n

theorem isSpelled_assignFree {taken : List String} {bases : List (String × String)}
    (h : ∀ base ∈ bases, IsSpelled base.2) :
    ∀ entry ∈ assignFree taken bases, IsSpelled entry.2 := by
  intro entry hentry
  obtain ⟨base, taken', hbase, hfree⟩ := exists_free_of_mem_assignFree hentry
  rw [hfree]
  exact (h _ hbase).free taken'

theorem isSpelled_ofGraph {g : TypeGraph} (hg : g.SingleLine) :
    ∀ entry ∈ ofGraph g, IsSpelled entry.2 := by
  intro entry hentry
  obtain ⟨node, hnode, lead, hlead, taken, hfree⟩ := exists_free_of_mem_ofGraph hentry
  have hname : IsSpelled (withLetter 'T' node.name) :=
    isSpelled_withLetter (by decide) (hg.nodes _ hnode).name.unbroken
  rw [hfree]
  refine IsSpelled.free ?_ taken
  rcases List.mem_pair.mp hlead with rfl | rfl
  · rwa [String.empty_append]
  · have hspelled : IsSpelled collisionLead := ⟨isCapital_collisionLead, by decide⟩
    exact hspelled.append hname.unbroken

end Identifier

end AnnotatedValues
