import AnnotatedValues.Proofs.Text.Trimming
import AnnotatedValues.Table.Markdown

/-!
# Inline code in cells

A code span stands between two runs of backticks of one length, and no run inside
it has this length.  The cell of a text is a code span exactly if the text is not
blank and has no run of two backticks: no fence is longer, and a blank text leaves
the fences alone.
-/

namespace AnnotatedValues.Table

open Text

/-! ## Runs of backticks -/

def ticks (n : Nat) : List Char := List.replicate n '`'

/-- A run of `n` backticks, no further one next to it. -/
def HasRun (n : Nat) (cs : List Char) : Prop :=
  ∃ before after, cs = before ++ ticks n ++ after ∧ (∀ c ∈ before.getLast?, c ≠ '`') ∧
    ∀ c ∈ after.head?, c ≠ '`'

/-- The lengths of the runs of a text behind `n` backticks, these counted in. -/
def runsFrom (n : Nat) : List Char → List Nat
  | [] => if n = 0 then [] else [n]
  | c :: cs => if c = '`' then runsFrom (n + 1) cs else (if n = 0 then [] else [n]) ++ runsFrom 0 cs

def runs (cs : List Char) : List Nat := runsFrom 0 cs

theorem eq_of_mem_ticks {n : Nat} {c : Char} (h : c ∈ ticks n) : c = '`' := List.eq_of_mem_replicate h

theorem hasRun_ticks_iff {n k : Nat} : HasRun n (ticks k) ↔ n = k := by
  constructor
  · rintro ⟨before, after, htext, hbefore, hafter⟩
    have hall : ∀ c ∈ before ++ ticks n ++ after, c = '`' := fun c hc => eq_of_mem_ticks (htext ▸ hc)
    have hfirst : before = [] := by
      by_contra hne
      have hlast := List.getLast_mem hne
      exact hbefore _ (List.getLast?_eq_getLast_of_ne_nil hne)
        (hall _ (List.mem_append_left _ (List.mem_append_left _ hlast)))
    have hrest : after = [] := by
      by_contra hne
      have hhead := List.head_mem hne
      exact hafter _ (List.head?_eq_some_head hne) (hall _ (List.mem_append_right _ hhead))
    rw [hfirst, hrest, List.append_nil, List.nil_append] at htext
    simpa [ticks] using (congrArg List.length htext).symm
  · rintro rfl
    exact ⟨[], [], by simp, nofun, nofun⟩

section

variable {n : Nat} {c : Char} {as bs : List Char}

/-- A run ends in front of a character that is no backtick, -/
theorem HasRun.append_cons (h : HasRun n as) (hc : c ≠ '`') (bs : List Char) :
    HasRun n (as ++ c :: bs) := by
  obtain ⟨before, after, rfl, hbefore, hafter⟩ := h
  refine ⟨before, after ++ c :: bs, by simp, hbefore, fun d hd => ?_⟩
  rw [List.head?_append, Option.mem_def, Option.or_eq_some_iff] at hd
  rcases hd with hd | ⟨-, hd⟩
  · exact hafter d hd
  · exact Option.mem_some_iff.mp hd ▸ hc

/-- or starts behind it, -/
theorem HasRun.behind (h : HasRun n bs) (hc : c ≠ '`') (as : List Char) :
    HasRun n (as ++ c :: bs) := by
  obtain ⟨before, after, rfl, hbefore, hafter⟩ := h
  refine ⟨as ++ c :: before, after, by simp, fun d hd => ?_, hafter⟩
  rw [List.getLast?_append_of_ne_nil _ (List.cons_ne_nil _ _), List.getLast?_cons] at hd
  cases hlast : before.getLast? with
  | none =>
      rw [hlast] at hd
      exact Option.mem_some_iff.mp hd ▸ hc
  | some e =>
      rw [hlast] at hd
      exact hbefore d (hlast.trans hd)

/-- and there are no others. -/
theorem HasRun.before_or_behind (hn : 0 < n) (hc : c ≠ '`') (h : HasRun n (as ++ c :: bs)) :
    HasRun n as ∨ HasRun n bs := by
  obtain ⟨before, after, htext, hbefore, hafter⟩ := h
  rw [List.append_assoc] at htext
  rcases List.append_eq_append_iff.mp htext with ⟨beyond, rfl, hrest⟩ | ⟨beyond, rfl, hrest⟩
  · -- The run stands behind the character.
    cases beyond with
    | nil =>
        have hmem : c ∈ ticks n := by
          obtain ⟨m, rfl⟩ := Nat.exists_eq_succ_of_ne_zero hn.ne'
          rw [(List.cons.inj hrest).1]
          exact List.mem_cons_self
        exact absurd (eq_of_mem_ticks hmem) hc
    | cons d beyond =>
        obtain ⟨rfl, rfl⟩ := List.cons.inj hrest
        refine Or.inr ⟨beyond, after, (List.append_assoc _ _ _).symm, fun d hd => ?_, hafter⟩
        refine hbefore d ?_
        rw [List.getLast?_append, List.getLast?_cons, hd]
        rfl
  · -- The run starts in front of it, and so ends there.
    rcases List.append_eq_append_iff.mp hrest with ⟨inside, rfl, rfl⟩ | ⟨inside, hticks, hinside⟩
    · refine Or.inl ⟨before, inside, (List.append_assoc _ _ _).symm, hbefore, fun d hd => ?_⟩
      refine hafter d ?_
      rw [List.head?_append, hd]
      rfl
    · cases inside with
      | nil =>
          rw [List.append_nil] at hticks
          exact Or.inl ⟨before, [], by rw [hticks, List.append_nil], hbefore, nofun⟩
      | cons d inside =>
          obtain ⟨rfl, -⟩ := List.cons.inj hinside
          have hmem : c ∈ ticks n := hticks ▸ List.mem_append_right _ List.mem_cons_self
          exact absurd (eq_of_mem_ticks hmem) hc

/-- A character that is no backtick parts the runs. -/
theorem hasRun_append_cons_iff (hn : 0 < n) (hc : c ≠ '`') :
    HasRun n (as ++ c :: bs) ↔ HasRun n as ∨ HasRun n bs := by
  constructor
  · exact HasRun.before_or_behind hn hc
  · rintro (h | h)
    · exact h.append_cons hc bs
    · exact h.behind hc as

end

theorem mem_runsFrom_iff {n : Nat} (hn : 0 < n) (k : Nat) (cs : List Char) :
    n ∈ runsFrom k cs ↔ HasRun n (ticks k ++ cs) := by
  have hpending : ∀ k, n ∈ (if k = 0 then [] else [k]) ↔ HasRun n (ticks k) := by
    intro k
    rw [hasRun_ticks_iff]
    split
    · rename_i hk
      subst hk
      simp only [List.not_mem_nil, false_iff]
      omega
    · exact List.mem_singleton
  induction cs generalizing k with
  | nil => rw [runsFrom, List.append_nil, hpending]
  | cons c cs ih =>
      by_cases hc : c = '`'
      · have hticks : ticks k ++ '`' :: cs = ticks (k + 1) ++ cs := by
          simp [ticks, List.replicate_succ']
        rw [runsFrom, if_pos hc, hc, hticks]
        exact ih (k + 1)
      · rw [runsFrom, if_neg hc, List.mem_append, hasRun_append_cons_iff hn hc]
        exact or_congr (hpending k) (ih 0)

theorem mem_runs_iff {n : Nat} (hn : 0 < n) {cs : List Char} : n ∈ runs cs ↔ HasRun n cs :=
  mem_runsFrom_iff hn 0 cs

theorem runs_append_cons {c : Char} (hc : c ≠ '`') (as bs : List Char) :
    runs (as ++ c :: bs) = runs as ++ runs bs := by
  have hfrom : ∀ k, runsFrom k (as ++ c :: bs) = runsFrom k as ++ runs bs := by
    induction as with
    | nil =>
        intro k
        rw [List.nil_append, runsFrom.eq_2, if_neg hc]
        rfl
    | cons a as ih =>
        intro k
        rw [List.cons_append, runsFrom, runsFrom, ih, ih]
        split
        · rfl
        · rw [List.append_assoc]
  exact hfrom 0

/-- A text without backticks has no runs. -/
theorem runs_eq_nil {cs : List Char} (h : '`' ∉ cs) : runs cs = [] := by
  induction cs with
  | nil => rfl
  | cons c cs ih =>
      rw [List.mem_cons, not_or] at h
      have hc := runs_append_cons (Ne.symm h.1) [] cs
      rwa [ih h.2] at hc

theorem runs_append_of_not_mem {bs : List Char} (h : '`' ∉ bs) (as : List Char) :
    runs (as ++ bs) = runs as := by
  cases bs with
  | nil => rw [List.append_nil]
  | cons b bs =>
      rw [List.mem_cons, not_or] at h
      rw [runs_append_cons (Ne.symm h.1), runs_eq_nil h.2, List.append_nil]

theorem runs_joined {sep : Char} (hsep : sep ≠ '`') (pieces : List (List Char)) :
    runs (joined [sep] pieces) = pieces.flatMap runs := by
  induction pieces with
  | nil => rfl
  | cons piece pieces ih =>
      cases pieces with
      | nil => simp [joined]
      | cons next pieces =>
          rw [joined_cons _ _ (List.cons_ne_nil next pieces), List.append_assoc,
            List.singleton_append, runs_append_cons hsep, ih]
          rfl

/-! ## Runs in cells -/

theorem runs_trimEnd (cs : List Char) : runs (trimEnd cs) = runs cs := by
  obtain ⟨after, hafter, hsplit⟩ := exists_trimEnd_append cs
  have htick : '`' ∉ after := fun h => absurd (hafter '`' h) (by decide)
  conv_rhs => rw [hsplit]
  exact (runs_append_of_not_mem htick (trimEnd cs)).symm

/-- Lines that become one keep their runs. -/
theorem runs_oneLine (cs : List Char) : runs (oneLine cs) = runs cs := by
  have hlines : ((lines (trimEnd cs)).map trimEnd).flatMap runs = (lines (trimEnd cs)).flatMap runs := by
    rw [List.flatMap_map]
    exact congrArg List.flatten (List.map_congr_left fun line _ => runs_trimEnd line)
  have hfeed : '\n' ≠ '`' := by decide
  rw [oneLine, runs_joined (by decide), hlines, ← runs_joined hfeed, joined_lines, runs_trimEnd]

theorem runs_escapeBars (cs : List Char) : runs (escapeBars cs) = runs cs := by
  have hfrom : ∀ k, runsFrom k (escapeBars cs) = runsFrom k cs := by
    induction cs with
    | nil => exact fun k => rfl
    | cons c cs ih =>
        intro k
        have hcons : escapeBars (c :: cs) = (if c == '|' then ['\\', '|'] else [c]) ++ escapeBars cs := rfl
        by_cases hc : c = '|'
        · rw [hcons, hc]
          simp [runsFrom, ih]
        · simp [hcons, hc, runsFrom, ih]
  exact hfrom 0

theorem runs_prose (text : String) : runs (prose text) = runs text.toList := by
  rw [prose, runs_escapeBars, runs_oneLine]

/-! ## Blank texts -/

theorem mem_oneLine {cs : List Char} {c : Char} (h : c ∈ cs) (hc : isBlank c = false) :
    c ∈ oneLine cs := by
  have hfeed : c ≠ '\n' := by
    rintro rfl
    cases hc
  obtain ⟨line, hline, hmem⟩ := exists_line_of_mem (mem_trimEnd h hc) hfeed
  exact mem_joined (List.mem_map.mpr ⟨line, hline, rfl⟩) (mem_trimEnd hmem hc)

/-- Only blank texts leave their cells empty. -/
theorem prose_eq_nil_iff (text : String) : prose text = [] ↔ IsBlanks text.toList := by
  have hescape : prose text = [] ↔ oneLine text.toList = [] := by
    refine ⟨fun h => ?_, fun h => by rw [prose, h]; rfl⟩
    rw [prose, escapeBars, List.flatMap_eq_nil_iff] at h
    refine List.eq_nil_iff_forall_not_mem.mpr fun c hc => ?_
    have hempty := h c hc
    split at hempty <;> cases hempty
  rw [hescape]
  constructor
  · intro h c hc
    by_contra hblank
    have hmem := mem_oneLine hc (Bool.eq_false_iff.mpr hblank)
    rw [h] at hmem
    cases hmem
  · intro h
    have htrim := trimEnd_append_blanks h []
    rw [List.nil_append, trimEnd_nil] at htrim
    rw [oneLine, htrim]
    rfl

/-! ## Code spans -/

/-- A text with runs of `n` backticks at both ends, and more between them. -/
structure IsFenced (n : Nat) (inner span : List Char) : Prop where
  pos : 0 < n
  text : span = ticks n ++ inner ++ ticks n
  ne_nil : inner ≠ []
  head : ∀ c ∈ inner.head?, c ≠ '`'
  last : ∀ c ∈ inner.getLast?, c ≠ '`'

/-- One code span: nothing between the fences ends it, and there stands the content, maybe with a
space on either side. -/
def IsCodeSpan (span content : List Char) : Prop :=
  ∃ n inner, IsFenced n inner span ∧ ¬ HasRun n inner ∧
    (inner = content ∨ inner = ' ' :: content ++ [' '])

theorem IsFenced.unique {n m : Nat} {inner other span : List Char} (h : IsFenced n inner span)
    (hother : IsFenced m other span) : n = m ∧ inner = other := by
  have hticks : ∀ k, ∀ c ∈ ticks k, (c != '`') = false := fun k c hc => by
    rw [eq_of_mem_ticks hc]
    rfl
  have hhead : ∀ {k : Nat} {text : List Char}, IsFenced k text span →
      ∀ c ∈ (text ++ ticks k).head?, (c != '`') = true := by
    intro k text htext c hc
    rw [List.head?_append_of_ne_nil _ htext.ne_nil] at hc
    exact bne_iff_ne.mpr (htext.head c hc)
  have hsame := h.text.symm.trans hother.text
  rw [List.append_assoc, List.append_assoc] at hsame
  obtain ⟨hfence, hrest⟩ := append_inj_of_separator (p := (· != '`')) (hticks n) (hticks m)
    (hhead h) (hhead hother) hsame
  have hn : n = m := by simpa [ticks] using congrArg List.length hfence
  subst hn
  exact ⟨rfl, List.append_cancel_right hrest⟩

theorem isFenced_of_mem {text : String} (h : '`' ∈ prose text) :
    IsFenced 2 (' ' :: prose text ++ [' ']) (codeSpan text) where
  pos := Nat.two_pos
  text := by
    unfold codeSpan
    dsimp only
    rw [if_pos (List.contains_iff_mem.mpr h)]
    simp [ticks]
  ne_nil := List.cons_ne_nil _ _
  head := fun c hc => by
    cases hc
    decide
  last := fun c hc => by
    rw [List.getLast?_concat] at hc
    cases hc
    decide

theorem codeSpan_of_not_mem {text : String} (h : '`' ∉ prose text) :
    codeSpan text = ticks 1 ++ prose text ++ ticks 1 := by
  unfold codeSpan
  dsimp only
  rw [if_neg (mt List.contains_iff_mem.mp h)]
  rfl

theorem isFenced_of_not_mem {text : String} (h : '`' ∉ prose text) (hne : prose text ≠ []) :
    IsFenced 1 (prose text) (codeSpan text) where
  pos := Nat.one_pos
  text := codeSpan_of_not_mem h
  ne_nil := hne
  head := fun _ hc heq => h (heq ▸ List.mem_of_mem_head? hc)
  last := fun _ hc heq => h (heq ▸ List.mem_of_mem_getLast? hc)

/-- Two backticks alone have nothing between them. -/
theorem not_isFenced_ticks_two (n : Nat) (inner : List Char) : ¬ IsFenced n inner (ticks 2) := by
  intro h
  have hlength := congrArg List.length h.text
  have hinner := List.length_pos_iff.mpr h.ne_nil
  have hpos := h.pos
  simp only [ticks, List.length_append, List.length_replicate] at hlength
  omega

theorem isCodeSpan_prose_iff (text : String) :
    IsCodeSpan (codeSpan text) (prose text) ↔ prose text ≠ [] ∧ ¬ HasRun 2 (prose text) := by
  by_cases htick : '`' ∈ prose text
  · have hfenced := isFenced_of_mem htick
    have hruns : runs (' ' :: prose text ++ [' ']) = runs (prose text) := by
      rw [runs_append_of_not_mem (by decide)]
      exact runs_append_cons (by decide) [] (prose text)
    rw [← mem_runs_iff Nat.two_pos, ← hruns, mem_runs_iff Nat.two_pos]
    constructor
    · rintro ⟨n, inner, hother, hrun, -⟩
      obtain ⟨rfl, rfl⟩ := hother.unique hfenced
      exact ⟨List.ne_nil_of_mem htick, hrun⟩
    · rintro ⟨-, hrun⟩
      exact ⟨2, _, hfenced, hrun, Or.inr rfl⟩
  · have hruns : ∀ n, 0 < n → ¬ HasRun n (prose text) := by
      intro n hn hrun
      rw [← mem_runs_iff hn, runs_eq_nil htick] at hrun
      cases hrun
    constructor
    · rintro ⟨n, inner, hfenced, -⟩
      refine ⟨fun hnil => ?_, hruns 2 Nat.two_pos⟩
      rw [codeSpan_of_not_mem htick, hnil] at hfenced
      exact not_isFenced_ticks_two n inner hfenced
    · rintro ⟨hne, -⟩
      exact ⟨1, _, isFenced_of_not_mem htick hne, hruns 1 Nat.one_pos, Or.inl rfl⟩

/-- The cell of a text is one code span exactly if the text has a character that is not blank and no
run of two backticks. -/
theorem isCodeSpan_codeSpan_iff (text : String) : IsCodeSpan (codeSpan text) (prose text) ↔
    (∃ c ∈ text.toList, isBlank c = false) ∧ ¬ HasRun 2 text.toList := by
  have hblank : prose text ≠ [] ↔ ∃ c ∈ text.toList, isBlank c = false := by
    rw [Ne, prose_eq_nil_iff, IsBlanks]
    simp
  rw [isCodeSpan_prose_iff, hblank, ← mem_runs_iff Nat.two_pos, runs_prose, mem_runs_iff Nat.two_pos]

/-- Backticks around a word, a longer run of them and a bar. -/
def quotedCommand : String := "`run` ```|"

theorem isCodeSpan_quotedCommand : (∃ c ∈ quotedCommand.toList, isBlank c = false) ∧
    ¬ HasRun 2 quotedCommand.toList ∧
      IsCodeSpan (codeSpan quotedCommand) (prose quotedCommand) := by
  have hmem : ∃ c ∈ quotedCommand.toList, isBlank c = false := ⟨'r', by decide, by decide⟩
  have hrun : ¬ HasRun 2 quotedCommand.toList := by
    rw [← mem_runs_iff Nat.two_pos]
    decide
  exact ⟨hmem, hrun, (isCodeSpan_codeSpan_iff quotedCommand).mpr ⟨hmem, hrun⟩⟩

/-- A run of two backticks ends the span in front of it. -/
theorem not_isCodeSpan_doubleTick : ¬ IsCodeSpan (codeSpan "a``b") (prose "a``b") := by
  rw [isCodeSpan_prose_iff, not_and_not_right]
  refine fun _ => (mem_runs_iff Nat.two_pos).mp ?_
  decide

end AnnotatedValues.Table
