import AnnotatedValues.Proofs.Fallible
import AnnotatedValues.Proofs.Table.Markdown
import AnnotatedValues.Proofs.Table.Readme
import Mathlib.Data.List.DropRight

/-!
# Tables in the place of a section

An update keeps all lines around the body of the first parameters section.  The
tables it writes hold no heading that would end the section, and what is left of
their last lines is neither empty nor a line feed.  So the next update finds the
section where this one found it, and of several updates the last one counts.
-/

namespace AnnotatedValues.Readme

open Text

/-! ## Headings that end a section -/

/-- A heading: hashes and at least one blank. -/
def IsHeading (depth : Nat) (line : List Char) : Prop :=
  1 ≤ depth ∧ ∃ c rest, isBlank c = true ∧ line = List.replicate depth '#' ++ c :: rest

/-- A line that ends a section of the given depth. -/
def EndsSection (depth : Nat) (line : List Char) : Prop := ∃ d ≤ depth, IsHeading d line

theorem headingDepth?_eq_some_iff {line : List Char} {depth : Nat} :
    headingDepth? line = some depth ↔ IsHeading depth line := by
  constructor
  · intro h
    unfold headingDepth? at h
    split at h
    · rename_i d c rest hhashes
      split at h
      · rename_i hguard
        cases h
        rw [Bool.and_eq_true, decide_eq_true_eq] at hguard
        obtain ⟨hdepth, hrest⟩ := Prod.mk.inj hhashes
        have hfront : line.takeWhile isHash = List.replicate depth '#' :=
          hdepth ▸ replicate_length_of_isHash fun x hx => List.mem_takeWhile_imp hx
        refine ⟨hguard.1, c, rest, hguard.2, ?_⟩
        rw [← hfront, ← hrest, List.takeWhile_append_dropWhile]
      · cases h
    · cases h
  · rintro ⟨hdepth, c, rest, hc, rfl⟩
    rw [headingDepth?, hashes_of_blank hc]
    exact if_pos (by simp [hdepth, hc])

example : headingDepth? "## License".toList = some 2 := by decide

theorem endsSection_iff {depth : Nat} {line : List Char} :
    endsSection depth line = true ↔ EndsSection depth line := by
  simp only [EndsSection, ← headingDepth?_eq_some_iff]
  unfold endsSection
  cases headingDepth? line with
  | none => simp
  | some d => simp

theorem not_endsSection_nil (depth : Nat) : ¬ EndsSection depth [] := by
  rintro ⟨d, -, -, c, rest, -, heq⟩
  exact List.append_ne_nil_of_right_ne_nil _ (List.cons_ne_nil c rest) heq.symm

theorem not_endsSection_of_bar (depth : Nat) {line : List Char} (h : line.head? = some '|') :
    ¬ EndsSection depth line := by
  rintro ⟨d, -, hd, c, rest, -, rfl⟩
  cases d with
  | zero => cases hd
  | succ d =>
      have heq := Option.some.inj h
      revert heq
      decide

theorem not_endsSection_deeper (depth : Nat) (title : List Char) :
    ¬ EndsSection depth (List.replicate (depth + 1) '#' ++ ' ' :: title) := by
  rintro ⟨d, hd, hheading⟩
  have hdeeper : IsHeading (depth + 1) (List.replicate (depth + 1) '#' ++ ' ' :: title) :=
    ⟨Nat.le_add_left 1 depth, ' ', title, by decide, rfl⟩
  rw [← headingDepth?_eq_some_iff] at hheading hdeeper
  have heq : depth + 1 = d := Option.some.inj (hdeeper.symm.trans hheading)
  exact Nat.not_succ_le_self depth (heq.le.trans hd)

/-! ## The body -/

variable {depth : Nat} {tables : List Table}

theorem dropFinalFeeds_append (cs : List Char) :
    ∃ feeds, (∀ c ∈ feeds, c = '\n') ∧ cs = dropFinalFeeds cs ++ feeds :=
  ⟨cs.rtakeWhile (· == '\n'),
    fun _ hc => beq_iff_eq.mp (List.mem_rtakeWhile_imp (p := (· == '\n')) hc),
    List.rdropWhile_append_rtakeWhile.symm⟩

theorem lines_dropFinalFeeds_subset (cs : List Char) : lines (dropFinalFeeds cs) ⊆ lines cs := by
  obtain ⟨feeds, hfeeds, hcs⟩ := dropFinalFeeds_append cs
  revert hcs
  generalize dropFinalFeeds cs = text
  rintro rfl
  cases feeds with
  | nil => rw [List.append_nil]; exact List.Subset.refl _
  | cons c feeds =>
      rw [hfeeds c List.mem_cons_self, lines_append]
      exact List.subset_append_left _ _

theorem bodyLines_of_ne_nil (h : dropFinalFeeds (Table.markdown depth tables) ≠ []) :
    bodyLines depth tables = lines (dropFinalFeeds (Table.markdown depth tables)) := by
  unfold bodyLines
  split
  · rename_i hnil
    exact absurd hnil h
  · rfl

theorem bodyLines_subset (depth : Nat) (tables : List Table) :
    bodyLines depth tables ⊆ lines (Table.markdown depth tables) := by
  by_cases hbody : dropFinalFeeds (Table.markdown depth tables) = []
  · rw [bodyLines, hbody]
    exact List.nil_subset _
  · rw [bodyLines_of_ne_nil hbody]
    exact lines_dropFinalFeeds_subset _

/-- No line of the tables ends the section that they are written to. -/
theorem not_endsSection_of_mem_bodyLines (h : ∀ table ∈ tables, '\n' ∉ table.title.toList)
    {line : List Char} (hline : line ∈ bodyLines depth tables) : ¬ EndsSection depth line := by
  rcases Table.mem_lines_markdown h (bodyLines_subset depth tables hline) with
    rfl | hbar | ⟨table, -, rfl⟩
  · exact not_endsSection_nil depth
  · exact not_endsSection_of_bar depth hbar
  · exact not_endsSection_deeper depth _

/-- The last line of the tables is not empty. -/
theorem ne_nil_of_bodyLines_eq {front : List (List Char)} {line : List Char}
    (h : bodyLines depth tables = front ++ [line]) : line ≠ [] := by
  rintro rfl
  by_cases hbody : dropFinalFeeds (Table.markdown depth tables) = []
  · rw [bodyLines, hbody] at h
    exact List.append_ne_nil_of_right_ne_nil front (List.cons_ne_nil _ _) h.symm
  · rw [bodyLines_of_ne_nil hbody] at h
    cases front with
    | nil =>
        refine hbody ?_
        rw [← joined_lines (dropFinalFeeds (Table.markdown depth tables)), h]
        rfl
    | cons first front =>
        have hlast := getLast?_eq_newline_iff.mpr ⟨first :: front, List.cons_ne_nil _ _, h⟩
        rw [List.getLast?_eq_some_getLast hbody] at hlast
        exact List.rdropWhile_last_not (· == '\n') _ hbody (beq_iff_eq.mpr (Option.some.inj hlast))

/-! ## The section -/

/-- The first parameters section of a text. -/
structure Section (texts : List (List Char)) where
  before : List (List Char)
  depth : Nat
  heading : List Char
  body : List (List Char)
  after : List (List Char)
  lines_eq : texts = before ++ heading :: (body ++ after)
  first : ∀ line ∈ before, ¬ IsParametersHeading line
  two_le : 2 ≤ depth
  isHeading : IsHeadingOfDepth depth heading
  inside : ∀ line ∈ body, ¬ EndsSection depth line
  ends : ∀ line ∈ after.head?, EndsSection depth line

theorem exists_section {texts : List (List Char)} (h : ∃ line ∈ texts, IsParametersHeading line) :
    Nonempty (Section texts) := by
  induction texts with
  | nil => simp at h
  | cons line texts ih =>
      by_cases hline : IsParametersHeading line
      · obtain ⟨depth, hdepth, hheading⟩ := hline
        let isInside : List Char → Bool := fun l => !endsSection depth l
        exact ⟨{
          before := []
          depth
          heading := line
          body := texts.takeWhile isInside
          after := texts.dropWhile isInside
          lines_eq := by rw [List.takeWhile_append_dropWhile]; rfl
          first := by simp
          two_le := hdepth
          isHeading := hheading
          inside := fun l hl hends => by
            have hinside := List.mem_takeWhile_imp hl
            simp [isInside, endsSection_iff.mpr hends] at hinside
          ends := fun l hl => by
            have hhead := List.head?_dropWhile_not isInside texts
            rw [Option.mem_def.mp hl] at hhead
            exact endsSection_iff.mp (by simpa [isInside] using hhead) }⟩
      · obtain ⟨other, hother, hheading⟩ := h
        rcases List.mem_cons.mp hother with rfl | hother
        · exact absurd hheading hline
        · obtain ⟨s⟩ := ih ⟨other, hother, hheading⟩
          exact ⟨{ s with
            before := line :: s.before
            lines_eq := congrArg (List.cons line) s.lines_eq
            first := List.forall_mem_cons.mpr ⟨hline, s.first⟩ }⟩

theorem split?_append {before : List (List Char)} (h : ∀ line ∈ before, ¬ IsParametersHeading line)
    (rest : List (List Char)) :
    split? (before ++ rest) =
      (split? rest).map fun parts => { parts with before := before ++ parts.before } := by
  induction before with
  | nil => exact Option.map_id'.symm
  | cons line before ih =>
      have hplain : parametersDepth? line = none :=
        Option.eq_none_iff_forall_ne_some.mpr fun depth hdepth =>
          h line List.mem_cons_self ⟨depth, parametersDepth?_eq_some_iff.mp hdepth⟩
      rw [List.cons_append, split?, hplain, ih fun l hl => h l (List.mem_cons_of_mem line hl)]
      simp [Function.comp_def]

namespace Section

variable {texts : List (List Char)}

def parts (s : Section texts) : Parts := ⟨s.before ++ [s.heading], s.depth, s.after⟩

theorem split?_eq (s : Section texts) : split? texts = some s.parts := by
  have hbody : ∀ line ∈ s.body, (!endsSection s.depth line) = true := by
    intro line hline
    rw [Bool.not_eq_true', Bool.eq_false_iff, Ne, endsSection_iff]
    exact s.inside line hline
  have hafter : s.after.dropWhile (fun l => !endsSection s.depth l) = s.after := by
    cases hnext : s.after with
    | nil => rfl
    | cons line after =>
        have hends := endsSection_iff.mpr (s.ends line (by rw [hnext]; rfl))
        exact List.dropWhile_cons_of_neg (by simp [hends])
  have hheading : parametersDepth? s.heading = some s.depth :=
    parametersDepth?_eq_some_iff.mpr ⟨s.two_le, s.isHeading⟩
  have hrest : split? (s.heading :: (s.body ++ s.after)) = some ⟨[s.heading], s.depth, s.after⟩ := by
    rw [split?, hheading]
    simp only [List.dropWhile_append_of_pos hbody, hafter]
  calc split? texts
      = split? (s.before ++ s.heading :: (s.body ++ s.after)) := congrArg split? s.lines_eq
    _ = some s.parts := by rw [split?_append s.first, hrest]; rfl

theorem heading_ne_nil (s : Section texts) : s.heading ≠ [] := by
  obtain ⟨blanks, after, hblanks, -, -, hheading⟩ := s.isHeading
  simp [hheading, hblanks]

/-- The section with another body. -/
def withBody (s : Section texts) {filled : List (List Char)} (body : List (List Char))
    (h : filled = s.before ++ s.heading :: (body ++ s.after))
    (hinside : ∀ line ∈ body, ¬ EndsSection s.depth line) : Section filled :=
  { s with body, lines_eq := h, inside := hinside }

/-- The empty line behind the tables, if another section or the end of the text follows it. -/
def blank (s : Section texts) (endsInFeed : Bool) : List (List Char) :=
  if !s.after.isEmpty || endsInFeed then [[]] else []

/-- The lines with the tables in place of the body. -/
def filled (s : Section texts) (endsInFeed : Bool) (tables : List Table) : List (List Char) :=
  s.before ++ s.heading :: (bodyLines s.depth tables ++ s.blank endsInFeed ++ s.after)

theorem blank_cases (s : Section texts) (endsInFeed : Bool) :
    s.blank endsInFeed = [] ∨ s.blank endsInFeed = [[]] := by
  unfold blank
  split
  · exact Or.inr rfl
  · exact Or.inl rfl

theorem eq_nil_of_mem_blank (s : Section texts) {endsInFeed : Bool} {line : List Char}
    (h : line ∈ s.blank endsInFeed) : line = [] := by
  rcases s.blank_cases endsInFeed with hnone | hone
  · rw [hnone] at h
    cases h
  · rw [hone] at h
    exact List.mem_singleton.mp h

theorem fill_parts (s : Section texts) (endsInFeed : Bool) (tables : List Table) :
    s.parts.fill endsInFeed tables = s.filled endsInFeed tables := by
  unfold Parts.fill filled parts blank
  cases s.after with
  | nil => cases endsInFeed <;> simp
  | cons line after => simp

theorem update_eq {readme : String} (s : Section (lines readme.toList)) (tables : List Table) :
    update readme tables = .ok (String.ofList
      (joined ['\n'] (s.filled (readme.toList.getLast? == some '\n') tables))) := by
  rw [update, s.split?_eq]
  exact congrArg (fun texts => Except.ok (String.ofList (joined ['\n'] texts))) (s.fill_parts _ _)

theorem lines_filled (s : Section texts) (h : ∀ line ∈ texts, '\n' ∉ line) (endsInFeed : Bool)
    (tables : List Table) :
    lines (joined ['\n'] (s.filled endsInFeed tables)) = s.filled endsInFeed tables := by
  have hkept := h
  rw [s.lines_eq] at hkept
  simp only [List.forall_mem_append, List.forall_mem_cons] at hkept
  have hbody : ∀ line ∈ bodyLines s.depth tables, '\n' ∉ line := fun line hline =>
    newline_not_mem_of_mem_lines (bodyLines_subset s.depth tables hline)
  have hblank : ∀ line ∈ s.blank endsInFeed, '\n' ∉ line := fun line hline =>
    s.eq_nil_of_mem_blank hline ▸ List.not_mem_nil
  refine lines_joined (by simp [filled]) ?_
  simp only [filled, List.forall_mem_append, List.forall_mem_cons]
  exact ⟨hkept.1, hkept.2.1, ⟨hbody, hblank⟩, hkept.2.2.2⟩

/-- The text behind an update ends in a line feed if the text before it did, unless other lines
follow the section. -/
theorem getLast?_filled (s : Section texts) (h : ∀ line ∈ texts, '\n' ∉ line)
    (hafter : s.after = []) (endsInFeed : Bool) (tables : List Table) :
    ((joined ['\n'] (s.filled endsInFeed tables)).getLast? == some '\n') = endsInFeed := by
  rw [Bool.eq_iff_iff, beq_iff_eq, getLast?_eq_newline_iff, s.lines_filled h, filled, blank, hafter]
  cases endsInFeed with
  | true =>
      refine iff_of_true ⟨s.before ++ s.heading :: bodyLines s.depth tables, by simp, by simp⟩ rfl
  | false =>
      refine iff_of_false ?_ Bool.false_ne_true
      rintro ⟨front, -, hfront⟩
      rcases List.eq_nil_or_concat (bodyLines s.depth tables) with hnil | ⟨body, line, hbody⟩
      · rw [hnil] at hfront
        exact s.heading_ne_nil (List.singleton_inj.mp (List.append_inj' hfront rfl).2)
      · rw [List.concat_eq_append] at hbody
        refine ne_nil_of_bodyLines_eq hbody ?_
        have hlast : (s.before ++ s.heading :: body) ++ [line] = front ++ [[]] := by
          simpa [hbody] using hfront
        exact List.singleton_inj.mp (List.append_inj' hlast rfl).2

theorem blank_congr (s : Section texts) {e e' : Bool} (h : s.after = [] → e = e') :
    s.blank e = s.blank e' := by
  unfold blank
  cases hafter : s.after with
  | nil => rw [h hafter]
  | cons line after => rfl

end Section

/-! ## Updates -/

/-- An update keeps the lines around the body of the section. -/
theorem exists_update_eq {readme : String} (s : Section (lines readme.toList))
    (tables : List Table) :
    ∃ text, update readme tables = .ok text ∧
      lines text.toList = s.filled (readme.toList.getLast? == some '\n') tables := by
  refine ⟨_, s.update_eq tables, ?_⟩
  rw [String.toList_ofList, s.lines_filled fun _ => newline_not_mem_of_mem_lines]

/-- Tables that were written before make no difference. -/
theorem update_update {readme text : String} (s : Section (lines readme.toList))
    {first : List Table} (htitles : ∀ table ∈ first, '\n' ∉ table.title.toList)
    (h : update readme first = .ok text) (second : List Table) :
    update text second = update readme second := by
  generalize hfeed : (readme.toList.getLast? == some '\n') = endsInFeed
  have hplain : ∀ line ∈ lines readme.toList, '\n' ∉ line := fun _ => newline_not_mem_of_mem_lines
  have htext : text.toList = joined ['\n'] (s.filled endsInFeed first) := by
    rw [s.update_eq, hfeed, Except.ok.injEq] at h
    rw [← h, String.toList_ofList]
  have hinside : ∀ line ∈ bodyLines s.depth first ++ s.blank endsInFeed,
      ¬ EndsSection s.depth line := by
    intro line hline
    rcases List.mem_append.mp hline with hbody | hblank
    · exact not_endsSection_of_mem_bodyLines htitles hbody
    · rw [s.eq_nil_of_mem_blank hblank]
      exact not_endsSection_nil _
  have hlines : lines text.toList = s.filled endsInFeed first :=
    htext ▸ s.lines_filled hplain endsInFeed first
  let s' := s.withBody _ hlines hinside
  have hblank : s.blank (text.toList.getLast? == some '\n') = s.blank endsInFeed :=
    s.blank_congr fun hafter => htext ▸ s.getLast?_filled hplain hafter endsInFeed first
  have hfilled : s'.filled (text.toList.getLast? == some '\n') second =
      s.filled endsInFeed second :=
    congrArg (fun blank => s.before ++ s.heading ::
      (bodyLines s.depth second ++ blank ++ s.after)) hblank
  rw [s'.update_eq, s.update_eq, hfeed, hfilled]

/-- An update is a splice, and of two updates the second one counts.  All lines up to the heading
of the section and from the heading that ends it stay, with the tables between them. -/
theorem update_splices {readme : String}
    (h : ∃ line ∈ lines readme.toList, IsParametersHeading line) :
    ∃ s : Section (lines readme.toList),
      (∀ tables, ∃ text blank, update readme tables = .ok text ∧ (blank = [] ∨ blank = [[]]) ∧
        lines text.toList =
          s.before ++ s.heading :: (bodyLines s.depth tables ++ blank ++ s.after)) ∧
      ∀ first : List Table, (∀ table ∈ first, '\n' ∉ table.title.toList) →
        ∀ text, update readme first = .ok text →
          ∀ second, update text second = update readme second := by
  obtain ⟨s⟩ := exists_section h
  refine ⟨s, fun tables => ?_, fun first htitles text htext second =>
    update_update s htitles htext second⟩
  obtain ⟨text, htext, hlines⟩ := exists_update_eq s tables
  exact ⟨text, _, htext, s.blank_cases _, hlines⟩

/-- A section between two others. -/
def chartReadme : String := "# Chart\n\n## Parameters\n\n### Old\n\n## License"

/-- A table with a heading in a description and a bar in a value. -/
def imageTable : Table := ⟨"Common", [⟨"image", "Name,\n## tag", "string", "a|b"⟩]⟩

def imageReadme : String :=
  "# Chart\n\n## Parameters\n\n### Common\n\n" ++
    "| Name    | Description  | Type     | Value  |\n" ++
    "| ------- | ------------ | -------- | ------ |\n" ++
    "| `image` | Name, ## tag | `string` | `a\\|b` |\n\n## License"

theorem update_imageTable : update chartReadme [imageTable] = .ok imageReadme := by
  rw [← Fallible.toOption_eq_some_iff]
  decide +kernel

theorem update_splices_chartReadme :
    (∃ line ∈ lines chartReadme.toList, IsParametersHeading line) ∧
      (∀ table ∈ [imageTable], '\n' ∉ table.title.toList) ∧
      update chartReadme [imageTable] = .ok imageReadme ∧
        ∀ second, update imageReadme second = update chartReadme second := by
  have hheading : ∃ line ∈ lines chartReadme.toList, IsParametersHeading line :=
    ⟨"## Parameters".toList, by decide, 2, Nat.le_refl 2, [' '], [], by simp,
      List.all_eq_true.mp (by decide), by simp, rfl⟩
  have htitles : ∀ table ∈ [imageTable], '\n' ∉ table.title.toList := by decide
  obtain ⟨-, -, htwice⟩ := update_splices hheading
  exact ⟨hheading, htitles, update_imageTable, htwice _ htitles imageReadme update_imageTable⟩

end AnnotatedValues.Readme
