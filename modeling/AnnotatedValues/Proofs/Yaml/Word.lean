import AnnotatedValues.DefaultValue
import Mathlib.Data.List.TakeWhile

/-!
# Words in YAML

A text without blanks and indicators is one token, a plain scalar, and the
document that it denotes is the reading of that scalar.  The scanner takes two
steps: past the scalar, which might still turn out to be a key, and to the end.
-/

namespace AnnotatedValues.Yaml

/-- A character that may stand anywhere in a word but at its ends. -/
def isWordChar (c : Char) : Bool := isAllowed c && !isSpaceOrTab c && !isBreak c

/-- No indicator stands first. -/
def startsWord : List Char → Bool
  | [] => false
  | c :: cs => c != byteOrderMark && (c != '-' || !cs.isEmpty) && Scanner.startsPlain false c cs

structure IsWord (w : List Char) : Prop where
  chars : ∀ c ∈ w, isWordChar c = true
  starts : startsWord w = true
  last : w.getLast? ≠ some ':'
  unmarked : atDocumentMark w = false

theorem IsWord.exists_cons {w : List Char} (hw : IsWord w) : ∃ c cs, w = c :: cs := by
  cases w with
  | nil => cases hw.starts
  | cons c cs => exact ⟨c, cs, rfl⟩

theorem isWordChar_iff {c : Char} :
    isWordChar c = true ↔ isAllowed c = true ∧ isSpaceOrTab c = false ∧ isBreak c = false := by
  simp [isWordChar, and_assoc]

/-! ## Characters -/

theorem unifyBreaks_eq_self {cs : List Char} (h : ∀ c ∈ cs, isBreak c = false) :
    unifyBreaks cs = cs := by
  fun_induction unifyBreaks cs with
  | case1 => rfl
  | case2 cs _ => cases h '\r' List.mem_cons_self
  | case3 c cs _ ih =>
      rw [List.forall_mem_cons] at h
      have hbreak : (c == '\r' || c == '\x85') = false := by
        have hc := h.1
        simp only [isBreak, Bool.or_eq_false_iff] at hc ⊢
        exact ⟨hc.1.1.1.2, hc.1.1.2⟩
      rw [hbreak, if_neg Bool.false_ne_true, ih h.2]

/-- A text of allowed characters is a stream as a whole. -/
theorem allowedPart_eq_self {cs : List Char} (h : ∀ c ∈ cs, isAllowed c = true) :
    allowedPart cs = (cs, false) := by
  have hflatten : (blocksFrom [] 0 cs).flatten = cs := flatten_blocksFrom [] 0 cs
  have hblocks : ∀ block ∈ blocksFrom [] 0 cs, block.all isAllowed = true := by
    intro block hblock
    refine List.all_eq_true.mpr fun c hc => h c ?_
    rw [← hflatten]
    exact List.mem_flatten.mpr ⟨block, hblock, hc⟩
  have htake : (blocksFrom [] 0 cs).takeWhile (·.all isAllowed) = blocksFrom [] 0 cs :=
    List.takeWhile_eq_self_iff.mpr hblocks
  have hany : ((blocksFrom [] 0 cs).any fun block => !block.all isAllowed) = false :=
    List.any_eq_false.mpr fun block hblock => by simp [hblocks block hblock]
  rw [allowedPart, htake, hflatten, hany]

theorem atWordEnd_eq_false {c : Char} {cs : List Char} (hc : isWordChar c = true) :
    atWordEnd (c :: cs) = false := by
  obtain ⟨-, hspace, hbreak⟩ := isWordChar_iff.mp hc
  rw [atWordEnd, hspace, hbreak]
  rfl

/-! ## The plain scalar -/

/-- The words of a scalar are read up to the end of the stream. -/
theorem readPlain_word {w : List Char} (hw : ∀ c ∈ w, isWordChar c = true)
    (hlast : w.getLast? ≠ some ':') (indent : Int) (text : List Char) (position : Position) :
    readPlain false indent text .empty false position w =
      some ⟨text.reverse ++ w, position.pastAll w, [], false⟩ := by
  induction w generalizing text position with
  | nil => simp [readPlain, Position.pastAll, Gap.empty]
  | cons c cs ih =>
      rw [List.forall_mem_cons] at hw
      obtain ⟨-, hspace, hbreak⟩ := isWordChar_iff.mp hw.1
      have hcolon : (c == ':' && atWordEnd cs) = false := by
        cases cs with
        | nil =>
            have hne : c ≠ ':' := by simpa using hlast
            simp [hne]
        | cons d cs =>
            rw [atWordEnd_eq_false (hw.2 d List.mem_cons_self), Bool.and_false]
      have htail : cs.getLast? ≠ some ':' := by
        cases cs with
        | nil => exact nofun
        | cons d cs => rwa [List.getLast?_cons_cons] at hlast
      rw [readPlain, hspace, hbreak, hcolon]
      simp only [Bool.false_and, Bool.or_false, Bool.false_eq_true, if_false]
      rw [ih hw.2 htail]
      simp [Gap.folded, Gap.empty, Position.pastAll]

/-! ## The scanner -/

namespace Scanner

/-- The characters with which another token starts, wherever they stand. -/
def indicators : List Char := ['%', '[', ']', '{', '}', ',', '*', '&', '!', '|', '>', '\'', '"']

section

variable {c : Char} {cs : List Char}

theorem beq_indicator_of_startsPlain (h : startsPlain false c cs = true) :
    ∀ d ∈ indicators, (c == d) = false := by
  have hindicators : ∀ d ∈ indicators, decide ((d == '-') = false ∧ (d == '?' || d == ':') = false ∧
      ",[]\x7b\x7d#&*!|>'\"%@`".toList.contains d = true) = true :=
    List.all_eq_true.mp (by decide)
  intro d hd
  rw [beq_eq_false_iff_ne]
  rintro rfl
  obtain ⟨hminus, hmark, hmem⟩ := of_decide_eq_true (hindicators c hd)
  rw [startsPlain.eq_def, hminus, hmark, hmem] at h
  simp at h

/-- A question mark or a colon that starts a plain scalar does not stand alone. -/
theorem mark_not_alone (h : startsPlain false c cs = true) {mark : Char}
    (hmark : mark ∈ ['?', ':']) : (c == mark && atWordEnd cs) = false := by
  cases hc : c == mark with
  | false => rfl
  | true =>
      cases beq_iff_eq.mp hc
      simp only [List.mem_cons, List.not_mem_nil, or_false] at hmark
      rcases hmark with rfl | rfl <;> simpa [startsPlain] using h

/-- What is scanned at the first column and starts with no indicator is a plain scalar. -/
theorem scanToken?_word {s : Scanner} (hflow : s.inFlow = false) (hw : IsWord (c :: cs))
    (hrest : s.rest = c :: cs) : s.scanToken? = s.scanPlain? := by
  have hunmarked := hw.unmarked
  rw [atDocumentMark, Bool.or_eq_false_iff] at hunmarked
  have hstarts := hw.starts
  simp only [startsWord, Bool.and_eq_true, bne_iff_ne] at hstarts
  obtain ⟨⟨-, hlonger⟩, hplain⟩ := hstarts
  have hdash : (c == '-' && atWordEnd cs) = false := by
    cases cs with
    | nil =>
        have hne : c ≠ '-' := by simpa using hlonger
        rw [beq_eq_false_iff_ne.mpr hne, Bool.false_and]
    | cons d rest => rw [atWordEnd_eq_false (hw.chars d (by simp)), Bool.and_false]
  have hquestion : (c == '?' && atWordEnd cs) = false := mark_not_alone hplain (by decide)
  have hcolon : (c == ':' && atWordEnd cs) = false := mark_not_alone hplain (by decide)
  have hindicators := beq_indicator_of_startsPlain hplain
  simp only [indicators, List.forall_mem_cons] at hindicators
  rw [scanToken?, hrest]
  simp [hflow, hunmarked, hdash, hquestion, hcolon, hindicators, hplain]

end

variable {w : List Char}

/-- The scanner before a text of one line. -/
def before (w : List Char) : Scanner := ⟨w, false, .start, [], 0, -1, [], none, [], true⟩

/-- The scanner behind a plain scalar that began where a key might. -/
def behind (w : List Char) : Scanner where
  rest := []
  cut := false
  position := Position.start.pastAll w
  produced := [.scalar true w]
  count := 1
  indent := -1
  outer := []
  candidate := some ⟨0, false, .start⟩
  flow := []
  keyAllowed := false

theorem start_eq_before (hw : IsWord w) : start w = before w := by
  have hallowed : ∀ c ∈ w, isAllowed c = true := fun c hc => (isWordChar_iff.mp (hw.chars c hc)).1
  have hbreak : ∀ c ∈ w, isBreak c = false := fun c hc => (isWordChar_iff.mp (hw.chars c hc)).2.2
  rw [start, allowedPart_eq_self hallowed]
  dsimp only
  rw [unifyBreaks_eq_self hbreak]
  rfl

theorem toNextToken_before (hw : IsWord w) : (before w).toNextToken = before w := by
  obtain ⟨c, cs, rfl⟩ := hw.exists_cons
  obtain ⟨-, hspace, hbreak⟩ := isWordChar_iff.mp (hw.chars c List.mem_cons_self)
  have hstarts := hw.starts
  simp only [startsWord, Bool.and_eq_true, bne_iff_ne] at hstarts
  have hcomment : (c == '#') = false := by
    rw [beq_eq_false_iff_ne]
    rintro rfl
    cases hstarts.2
  have hgap : skipGap (before (c :: cs)).inFlow (before (c :: cs)).keyAllowed false
      (before (c :: cs)).position (before (c :: cs)).rest = (true, .start, c :: cs) := by
    change skipGap false true false .start (c :: cs) = (true, .start, c :: cs)
    simp only [isSpaceOrTab, Bool.or_eq_false_iff] at hspace
    simp [skipGap, hbreak, hspace, hcomment, hstarts.1.1]
  rw [toNextToken, hgap]
  rfl

theorem scanPlain?_before (hw : IsWord w) : (before w).scanPlain? = some (behind w) := by
  have hread : readPlain false 0 [] .empty false .start w =
      some ⟨w, Position.start.pastAll w, [], false⟩ := readPlain_word hw.chars hw.last 0 [] .start
  change ((readPlain false 0 [] .empty false .start w).bind _) = _
  rw [hread]
  rfl

/-- The first step passes the scalar. -/
theorem step?_before (hw : IsWord w) : (before w).step? = (behind w).dropStale? := by
  obtain ⟨c, cs, rfl⟩ := hw.exists_cons
  have hdrop : (before (c :: cs)).dropStale? = some (before (c :: cs)) := rfl
  have hclose : (before (c :: cs)).closeTo (before (c :: cs)).position.column =
      before (c :: cs) := rfl
  have hcut : (before (c :: cs)).isCutWithin 4 = false := rfl
  have hscan : (before (c :: cs)).scanToken? = some (behind (c :: cs)) :=
    (scanToken?_word rfl hw rfl).trans (scanPlain?_before hw)
  simp only [step?, toNextToken_before hw, hdrop, hclose, hcut, hscan, Option.bind_eq_bind,
    Option.bind_some]
  rfl

/-- The scanner behind the scalar, whether it may still be a key or not. -/
def trailing (w : List Char) (candidate : Option Candidate) : Scanner := { behind w with candidate }

theorem exists_dropStale?_trailing {candidate : Option Candidate}
    (h : ∀ c ∈ candidate, c.required = false) :
    ∃ left, (∀ c ∈ left, c.required = false) ∧
      (trailing w candidate).dropStale? = some (trailing w left) := by
  cases candidate with
  | none => exact ⟨none, nofun, rfl⟩
  | some c =>
      have hc : c.required = false := h c rfl
      refine ⟨lapse (behind w).position (some c), fun d hd => ?_, ?_⟩
      · exact h d (Option.filter_eq_some_iff.mp hd).1
      · have hstale : (c.required && Candidate.isStale (behind w).position c) = false := by
          rw [hc, Bool.false_and]
        exact if_neg (Bool.eq_false_iff.mp hstale)

theorem closeTo_trailing (candidate : Option Candidate) (column : Nat) :
    (trailing w candidate).closeTo column = trailing w candidate := by
  have hcolumn : ¬ (column : Int) < -1 := by omega
  simp [closeTo, closeBlocks, inFlow, trailing, behind, hcolumn]

/-- At the end of the stream a scalar that need not be a key is none. -/
theorem exists_scanStreamEnd? {candidate : Option Candidate}
    (h : ∀ c ∈ candidate, c.required = false) :
    ∃ s, (trailing w candidate).scanStreamEnd? = some s ∧ s.cut = false ∧ s.candidate = none ∧
      s.produced = [.streamEnd, .scalar true w] := by
  cases candidate with
  | none => exact ⟨_, rfl, rfl, rfl, rfl⟩
  | some c =>
      obtain ⟨number, required, position⟩ := c
      cases (h _ rfl : required = false)
      exact ⟨_, rfl, rfl, rfl, rfl⟩

/-- The second step ends the stream. -/
theorem exists_step?_trailing {candidate : Option Candidate}
    (h : ∀ c ∈ candidate, c.required = false) :
    ∃ s, (trailing w candidate).step? = some s ∧ s.produced = [.streamEnd, .scalar true w] := by
  obtain ⟨left, hleft, hdrop⟩ := exists_dropStale?_trailing (w := w) h
  obtain ⟨s, hend, hcut, hnone, hproduced⟩ := exists_scanStreamEnd? (w := w) hleft
  have hnext : (trailing w candidate).toNextToken = trailing w candidate := rfl
  have hscan : (trailing w left).scanToken? = (trailing w left).scanStreamEnd? := rfl
  have hwhole : (trailing w left).isCutWithin 4 = false := rfl
  have hend' : s.isCutWithin 1 = false := by rw [isCutWithin, hcut, Bool.false_and]
  have hlast : s.dropStale? = some { s with flow := s.flow.map (lapse s.position) } := by
    rw [dropStale?, hnone]
  refine ⟨{ s with flow := s.flow.map (lapse s.position) }, ?_, hproduced⟩
  simp only [step?, hnext, hdrop, hwhole, closeTo_trailing, hscan, hend, Option.bind_eq_bind,
    Option.bind_some, hend', hlast, Bool.false_eq_true, if_false]

end Scanner

/-- The tokens of a word. -/
theorem ofText_word {w : List Char} (hw : IsWord w) :
    Token.ofText w = [.scalar true w, .streamEnd] := by
  have hoptional : ∀ c ∈ some (⟨0, false, .start⟩ : Candidate), c.required = false := by
    rintro c ⟨⟩
    rfl
  obtain ⟨left, hleft, hdrop⟩ := Scanner.exists_dropStale?_trailing (w := w) hoptional
  obtain ⟨s, hstep, hproduced⟩ := Scanner.exists_step?_trailing hleft
  have hfirst : (Scanner.before w).step? = some (Scanner.trailing w left) :=
    (Scanner.step?_before hw).trans hdrop
  obtain ⟨n, hn⟩ : ∃ n, w.length + 1 = n + 2 := by
    obtain ⟨c, cs, rfl⟩ := hw.exists_cons
    exact ⟨cs.length, rfl⟩
  have htoken : (Scanner.trailing w left).produced = [.scalar true w] := rfl
  rw [Token.ofText, Scanner.start_eq_before hw, hn, Scanner.run, hfirst]
  simp only [htoken]
  rw [Scanner.run, hstep]
  simp only [hproduced]
  rfl

theorem readValue_plain (source : Source) (fuel depth jumps : Nat) (w : List Char) :
    (readValue source (fuel + 1) depth jumps [.scalar none true w]).toOption.map (·.result) =
      (Plain.ofText w).document? w := by
  have hscalar : scalarValue? none true w = (Plain.ofText w).document? w := rfl
  rw [readValue, hscalar]
  cases (Plain.ofText w).document? w <;> rfl

/-- A document that is one plain scalar. -/
theorem documentOfEvents_plain (w : List Char) :
    (documentOfEvents [.scalar none none true w, .documentEnd, .streamEnd]).toOption =
      (Plain.ofText w).document? w := by
  have hevents : ([.scalar none none true w, .documentEnd, .streamEnd] == [Event.streamEnd]) =
      false := rfl
  have hcontent : Content.ofEvents .empty [.scalar none none true w, .documentEnd, .streamEnd] =
      (⟨[.scalar none true w], [], []⟩, some [.streamEnd]) := rfl
  rw [documentOfEvents, hevents, if_neg Bool.false_ne_true, hcontent,
    ← readValue_plain ⟨[.scalar none true w], []⟩ 1319 depthLimit 0 w]
  dsimp only
  have hvalue : (⟨[.scalar none true w], [], []⟩ : Content).value =
      (readValue ⟨[.scalar none true w], []⟩ (1319 + 1) depthLimit 0
        [.scalar none true w]).map (·.result) := rfl
  rw [hvalue]
  cases readValue ⟨[.scalar none true w], []⟩ (1319 + 1) depthLimit 0 [.scalar none true w] <;> rfl

/-- A word denotes what it is as a plain scalar. -/
theorem readLiteral?_word {w : String} (hw : IsWord w.toList) :
    readLiteral? w = (Plain.ofText w.toList).document? w.toList := by
  have hevents : Event.ofTokens [.scalar true w.toList, .streamEnd] =
      [.scalar none none true w.toList, .documentEnd, .streamEnd] := rfl
  rw [readLiteral?, Document.ofYaml, ofText_word hw, hevents, documentOfEvents_plain]

end AnnotatedValues.Yaml
