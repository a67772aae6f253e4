import AnnotatedValues.Proofs.Table.Markdown
import Mathlib.Data.List.Forall2

/-!
# The layout of tables

A table has one line for each row and two before these.  All columns are as wide
as their widest cell, so that all lines have one length.  A cell holds bars
behind backslashes only, so that the bars which stand alone are those around the
columns.
-/

namespace AnnotatedValues.Table

open Text

/-! ## Widths -/

/-- The cells of a line are no wider than their columns, of which there are as many. -/
def Fits (widths : List Nat) (cells : Cells) : Prop :=
  List.Forall₂ (fun width cell => cell.length ≤ width) widths cells

theorem fits_widen {widths : List Nat} {cells : Cells} (h : widths.length = cells.length) :
    Fits (widen widths cells) cells := by
  induction widths generalizing cells with
  | nil =>
      rw [List.eq_nil_of_length_eq_zero h.symm]
      exact .nil
  | cons width widths ih =>
      cases cells with
      | nil => cases h
      | cons cell cells => exact .cons (Nat.le_max_right _ _) (ih (Nat.succ.inj h))

theorem Fits.widen {widths : List Nat} {cells other : Cells} (h : Fits widths cells)
    (hother : widths.length = other.length) : Fits (widen widths other) cells := by
  induction h generalizing other with
  | nil => exact .nil
  | cons hcell _ ih =>
      cases other with
      | nil => cases hother
      | cons next other =>
          exact .cons (Nat.le_trans hcell (Nat.le_max_left _ _)) (ih (Nat.succ.inj hother))

theorem length_widen {widths : List Nat} {cells : Cells} (h : widths.length = cells.length) :
    (widen widths cells).length = widths.length := by
  rw [Table.widen, List.length_zipWith, h, Nat.min_self]

/-- Columns only get wider, and get wide enough for each line. -/
theorem fits_foldl_widen {widths : List Nat} {lines : List Cells}
    (h : ∀ cells ∈ lines, cells.length = widths.length) :
    (∀ cells, Fits widths cells → Fits (lines.foldl widen widths) cells) ∧
      ∀ cells ∈ lines, Fits (lines.foldl widen widths) cells := by
  induction lines generalizing widths with
  | nil => exact ⟨fun _ hfits => hfits, nofun⟩
  | cons first lines ih =>
      obtain ⟨hfirst, hlines⟩ := List.forall_mem_cons.mp h
      obtain ⟨hwider, hfits⟩ := ih fun cells hcells =>
        (hlines cells hcells).trans (length_widen hfirst.symm).symm
      exact ⟨fun cells hcells => hwider cells (hcells.widen hfirst.symm),
        List.forall_mem_cons.mpr ⟨hwider first (fits_widen hfirst.symm), hfits⟩⟩

/-- No cell of a table is wider than its column, so that padding takes no more than there is. -/
theorem fits_widthsOf (rows : List Row) :
    ∀ cells ∈ header :: rows.map Row.cells, Fits (widthsOf (rows.map Row.cells)) cells := by
  have hlength : ∀ cells ∈ rows.map Row.cells, cells.length = (header.map List.length).length := by
    intro cells hcells
    obtain ⟨row, -, rfl⟩ := List.mem_map.mp hcells
    have hrow : row.cells.length = 4 := rfl
    have hheader : header.length = 4 := rfl
    rw [List.length_map, hrow, hheader]
  obtain ⟨hwider, hfits⟩ := fits_foldl_widen hlength
  have hheader : Fits (header.map List.length) header :=
    List.forall₂_map_left_iff.mpr (List.forall₂_same.mpr fun _ _ => Nat.le_refl _)
  exact List.forall_mem_cons.mpr ⟨hwider header hheader, hfits⟩

theorem fits_ruleCells (widths : List Nat) : Fits widths (ruleCells widths) :=
  List.forall₂_map_right_iff.mpr (List.forall₂_same.mpr fun _ _ => List.length_replicate.le)

theorem length_cellText {width : Nat} {cell : List Char} (h : cell.length ≤ width) :
    (cellText width cell).length = width + 3 := by
  simp only [cellText, padded, List.length_append, List.length_cons, List.length_replicate,
    List.length_nil]
  omega

/-- The length of a line with such columns: each stands between blanks and in front of a bar. -/
def lineLength (widths : List Nat) : Nat := widths.foldr (fun width length => width + 3 + length) 1

/-- The length of a line is that of its columns, whatever its cells are. -/
theorem length_barLine {widths : List Nat} {cells : Cells} (h : Fits widths cells) :
    (barLine widths cells).length = lineLength widths := by
  rw [barLine, List.length_cons, lineLength]
  induction h with
  | nil => rfl
  | cons hcell _ ih =>
      rw [List.zipWith_cons_cons, List.flatten_cons, List.length_append, length_cellText hcell,
        List.foldr_cons, ← ih, Nat.add_assoc]

/-! ## Bars -/

/-- The number of bars in a text that do not stand right behind a backslash; `escaped` says whether
the text stands behind one. -/
def bareBars (escaped : Bool) : List Char → Nat
  | [] => 0
  | c :: cs => (if c == '|' && !escaped then 1 else 0) + bareBars (c == '\\') cs

theorem bareBars_eq_zero {cs : List Char} (h : '|' ∉ cs) (escaped : Bool) :
    bareBars escaped cs = 0 := by
  induction cs generalizing escaped with
  | nil => rfl
  | cons c cs ih =>
      rw [List.mem_cons, not_or] at h
      have hc : (c == '|') = false := beq_eq_false_iff_ne.mpr (Ne.symm h.1)
      rw [bareBars, hc, ih h.2]
      rfl

/-- A blank ends what a backslash escapes. -/
theorem bareBars_append_blank (escaped : Bool) (as bs : List Char) :
    bareBars escaped (as ++ ' ' :: bs) = bareBars escaped as + bareBars false bs := by
  induction as generalizing escaped with
  | nil => simp [bareBars]
  | cons a as ih => rw [List.cons_append, bareBars, bareBars, ih, Nat.add_assoc]

theorem bareBars_append_of_not_mem {bs : List Char} (h : '|' ∉ bs) (escaped : Bool) (as : List Char) :
    bareBars escaped (as ++ bs) = bareBars escaped as := by
  induction as generalizing escaped with
  | nil => exact bareBars_eq_zero h escaped
  | cons a as ih => rw [List.cons_append, bareBars, bareBars, ih]

theorem bareBars_escapeBars (escaped : Bool) (cs : List Char) :
    bareBars escaped (escapeBars cs) = 0 := by
  induction cs generalizing escaped with
  | nil => rfl
  | cons c cs ih =>
      have hcons : escapeBars (c :: cs) = (if c == '|' then ['\\', '|'] else [c]) ++ escapeBars cs := rfl
      cases hc : c == '|' with
      | true => simp [hcons, hc, bareBars, ih]
      | false => simp [hcons, hc, bareBars, ih]

theorem bareBars_codeSpan (escaped : Bool) (text : String) : bareBars escaped (codeSpan text) = 0 := by
  have hprose : bareBars false (prose text) = 0 := bareBars_escapeBars false _
  unfold codeSpan
  dsimp only
  split
  · rw [bareBars_append_of_not_mem (by decide)]
    simpa [bareBars] using hprose
  · rw [bareBars_append_of_not_mem (by decide)]
    simpa [bareBars] using hprose

theorem bareBars_of_mem_cells {row : Row} {cell : List Char} (h : cell ∈ row.cells) :
    bareBars false cell = 0 := by
  simp only [Row.cells, List.mem_cons, List.not_mem_nil, or_false] at h
  rcases h with rfl | rfl | rfl | rfl
  · exact bareBars_codeSpan _ _
  · exact bareBars_escapeBars _ _
  · exact bareBars_codeSpan _ _
  · exact bareBars_codeSpan _ _

theorem bareBars_cellText_append {cell : List Char} (h : bareBars false cell = 0) (escaped : Bool)
    (width : Nat) (rest : List Char) :
    bareBars escaped (cellText width cell ++ rest) = 1 + bareBars false rest := by
  have hpad : '|' ∉ List.replicate (width - cell.length) ' ' := fun hmem =>
    absurd (List.eq_of_mem_replicate hmem) (by decide)
  have htext : cellText width cell ++ rest = [] ++ ' ' :: (padded width cell ++ ' ' :: '|' :: rest) := by
    simp [cellText]
  rw [htext, bareBars_append_blank, bareBars_append_blank, padded, bareBars_append_of_not_mem hpad, h]
  simp [bareBars]

/-- The bars of a line that stand alone are one more than its columns. -/
theorem bareBars_barLine {widths : List Nat} {cells : Cells} (hfits : Fits widths cells)
    (h : ∀ cell ∈ cells, bareBars false cell = 0) :
    bareBars false (barLine widths cells) = 1 + widths.length := by
  have hcells : bareBars false (List.zipWith cellText widths cells).flatten = widths.length := by
    induction hfits with
    | nil => rfl
    | cons _ _ ih =>
        obtain ⟨hcell, hrest⟩ := List.forall_mem_cons.mp h
        rw [List.zipWith_cons_cons, List.flatten_cons, bareBars_cellText_append hcell, ih hrest,
          List.length_cons, Nat.add_comm]
  exact congrArg (1 + ·) hcells

/-! ## Tables -/

theorem length_widthsOf (rows : List Row) : (widthsOf (rows.map Row.cells)).length = 4 :=
  (fits_widthsOf rows header List.mem_cons_self).length_eq

/-- The lines of a table are laid out for cells that fit and whose bars are escaped. -/
theorem exists_cells_of_mem_tableLines {rows : List Row} {line : List Char}
    (h : line ∈ tableLines rows) : ∃ cells, Fits (widthsOf (rows.map Row.cells)) cells ∧
      (∀ cell ∈ cells, bareBars false cell = 0) ∧
        line = barLine (widthsOf (rows.map Row.cells)) cells := by
  have hfits := fits_widthsOf rows
  rcases List.mem_cons.mp h with rfl | h
  · exact ⟨header, hfits _ List.mem_cons_self, by decide, rfl⟩
  · rcases List.mem_cons.mp h with rfl | h
    · refine ⟨_, fits_ruleCells _, fun cell hcell => ?_, rfl⟩
      obtain ⟨width, -, rfl⟩ := List.mem_map.mp hcell
      exact bareBars_eq_zero (fun hmem => absurd (List.eq_of_mem_replicate hmem) (by decide)) false
    · obtain ⟨cells, hcells, rfl⟩ := List.mem_map.mp h
      refine ⟨cells, hfits _ (List.mem_cons_of_mem _ hcells), fun cell hcell => ?_, rfl⟩
      obtain ⟨row, -, rfl⟩ := List.mem_map.mp hcells
      exact bareBars_of_mem_cells hcell

/-- Whatever its rows hold, a table has two lines more than rows, each with its line feed; they all
have one length and five bars that stand alone, and every cell fits into its column. -/
theorem rowsText_layout (rows : List Row) : ∃ texts,
    lines (rowsText rows) = texts ++ [[]] ∧ texts.length = rows.length + 2 ∧
    (∃ length, ∀ text ∈ texts, text.length = length) ∧
    (∀ text ∈ texts, bareBars false text = 5) ∧
    ∀ cells ∈ header :: rows.map Row.cells,
      List.Forall₂ (fun width cell => cell.length ≤ width) (widthsOf (rows.map Row.cells)) cells := by
  let widths := widthsOf (rows.map Row.cells)
  refine ⟨tableLines rows, ?_, ?_, ⟨lineLength widths, fun line hline => ?_⟩,
    fun line hline => ?_, fits_widthsOf rows⟩
  · have hlines := lines_rowsText_append rows []
    rwa [List.append_nil] at hlines
  · simp [tableLines]
  · obtain ⟨cells, hfits, -, rfl⟩ := exists_cells_of_mem_tableLines hline
    exact length_barLine hfits
  · obtain ⟨cells, hfits, hbars, rfl⟩ := exists_cells_of_mem_tableLines hline
    rw [bareBars_barLine hfits hbars, length_widthsOf]

/-- A row with a bar, a line feed, a backslash at an end and backticks. -/
def markedRow : Row := ⟨"a|b", "two\nlines \\", "string", "`x`"⟩

theorem mem_lines_markedRow :
    "| `a\\|b` | two lines \\ | `string` | `` `x` `` |".toList ∈ lines (rowsText [markedRow]) := by
  decide +kernel

/-- It is a line with five bars that stand alone. -/
theorem rowsText_layout_markedRow : ∃ texts, lines (rowsText [markedRow]) = texts ++ [[]] ∧
    texts.length = 3 ∧ ∃ text ∈ texts,
      text = "| `a\\|b` | two lines \\ | `string` | `` `x` `` |".toList ∧ bareBars false text = 5 := by
  obtain ⟨texts, hlines, hlength, -, hbars, -⟩ := rowsText_layout [markedRow]
  have hmem := mem_lines_markedRow
  rw [hlines, List.mem_append] at hmem
  have hline := hmem.resolve_right (by decide)
  exact ⟨texts, hlines, hlength, _, hline, rfl, hbars _ hline⟩

end AnnotatedValues.Table
