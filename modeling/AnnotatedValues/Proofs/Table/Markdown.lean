import AnnotatedValues.Proofs.Text.Lines
import AnnotatedValues.Table.Markdown

/-!
# The lines of tables

No cell holds a line feed, whatever its text is.  So a table is lines behind
vertical bars, and tables are such lines, their headings and empty lines.
-/

namespace AnnotatedValues.Table

open Text

theorem newline_not_mem_replicate (n : Nat) {c : Char} (h : c ≠ '\n') :
    '\n' ∉ List.replicate n c := fun hmem => h (List.eq_of_mem_replicate hmem).symm

/-! ## Cells -/

theorem newline_not_mem_oneLine (cs : List Char) : '\n' ∉ oneLine cs := by
  intro h
  rcases mem_of_mem_joined h with hblank | ⟨piece, hpiece, hmem⟩
  · revert hblank
    decide
  · obtain ⟨line, hline, rfl⟩ := List.mem_map.mp hpiece
    exact newline_not_mem_of_mem_lines hline (mem_of_mem_trimEnd hmem)

theorem newline_not_mem_escapeBars {cs : List Char} (h : '\n' ∉ cs) : '\n' ∉ escapeBars cs := by
  intro hmem
  obtain ⟨c, hc, hmem⟩ := List.mem_flatMap.mp hmem
  split at hmem
  · revert hmem
    decide
  · exact h (List.mem_singleton.mp hmem ▸ hc)

theorem newline_not_mem_prose (text : String) : '\n' ∉ prose text :=
  newline_not_mem_escapeBars (newline_not_mem_oneLine _)

theorem newline_not_mem_codeSpan (text : String) : '\n' ∉ codeSpan text := by
  have hprose := newline_not_mem_prose text
  unfold codeSpan
  dsimp only
  split
  · simp [hprose]
  · simp [hprose]

theorem newline_not_mem_of_mem_cells {row : Row} {cell : List Char} (h : cell ∈ row.cells) :
    '\n' ∉ cell := by
  simp only [Row.cells, List.mem_cons, List.not_mem_nil, or_false] at h
  rcases h with rfl | rfl | rfl | rfl
  · exact newline_not_mem_codeSpan _
  · exact newline_not_mem_prose _
  · exact newline_not_mem_codeSpan _
  · exact newline_not_mem_codeSpan _

/-! ## Lines -/

variable {cells : Cells} {depth : Nat}

theorem newline_not_mem_cellText (width : Nat) {cell : List Char} (h : '\n' ∉ cell) :
    '\n' ∉ cellText width cell := by
  have hpad := newline_not_mem_replicate (width - cell.length) (c := ' ') (by decide)
  simp [cellText, padded, h, hpad]

/-- A line of a table, without its line feed. -/
def barLine (widths : List Nat) (cells : Cells) : List Char :=
  '|' :: (List.zipWith cellText widths cells).flatten

/-- The cells of the line between the header and the rows. -/
def ruleCells (widths : List Nat) : Cells := widths.map fun width => List.replicate width '-'

/-- The lines of a table with the given rows. -/
def tableLines (rows : List Row) : List (List Char) :=
  let lines := rows.map Row.cells
  let widths := widthsOf lines
  barLine widths header :: barLine widths (ruleCells widths) :: lines.map (barLine widths)

theorem newline_not_mem_barLine (widths : List Nat) (h : ∀ cell ∈ cells, '\n' ∉ cell) :
    '\n' ∉ barLine widths cells := by
  have hcells : '\n' ∉ (List.zipWith cellText widths cells).flatten := by
    intro hmem
    obtain ⟨text, htext, hmem⟩ := List.mem_flatten.mp hmem
    rw [← List.map_uncurry_zip_eq_zipWith] at htext
    obtain ⟨⟨width, cell⟩, hpair, rfl⟩ := List.mem_map.mp htext
    exact newline_not_mem_cellText width (h cell (List.of_mem_zip hpair).2) hmem
  simp [barLine, hcells]

theorem lines_lineText_append (widths : List Nat) (h : ∀ cell ∈ cells, '\n' ∉ cell)
    (rest : List Char) : lines (lineText widths cells ++ rest) = barLine widths cells :: lines rest := by
  have hline : lineText widths cells = barLine widths cells ++ ['\n'] := rfl
  rw [hline, List.append_assoc, List.singleton_append, lines_append,
    lines_eq_singleton (newline_not_mem_barLine widths h)]
  rfl

theorem lines_rows_append (widths : List Nat) (rows : List Row) (rest : List Char) :
    lines (((rows.map Row.cells).map (lineText widths)).flatten ++ rest) =
      (rows.map Row.cells).map (barLine widths) ++ lines rest := by
  induction rows with
  | nil => rfl
  | cons row rows ih =>
      have hcells : ∀ cell ∈ row.cells, '\n' ∉ cell := fun _ => newline_not_mem_of_mem_cells
      rw [List.map_cons, List.map_cons, List.flatten_cons, List.append_assoc,
        lines_lineText_append widths hcells, ih]
      rfl

/-- A table has its lines, each with a line feed. -/
theorem lines_rowsText_append (rows : List Row) (rest : List Char) :
    lines (rowsText rows ++ rest) = tableLines rows ++ lines rest := by
  have hheader : ∀ cell ∈ header, '\n' ∉ cell := by decide
  unfold rowsText tableLines
  dsimp only
  generalize widthsOf (rows.map Row.cells) = widths
  have hrule : ∀ cell ∈ ruleCells widths, '\n' ∉ cell := by
    intro cell hcell
    obtain ⟨width, -, rfl⟩ := List.mem_map.mp hcell
    exact newline_not_mem_replicate width (by decide)
  have htext : ruleText widths = lineText widths (ruleCells widths) := rfl
  rw [List.append_assoc, List.append_assoc, lines_lineText_append widths hheader, htext,
    lines_lineText_append widths hrule, lines_rows_append]
  rfl

/-- A table is lines behind bars. -/
theorem head?_of_mem_tableLines {rows : List Row} {line : List Char} (h : line ∈ tableLines rows) :
    line.head? = some '|' := by
  rcases List.mem_cons.mp h with rfl | h
  · rfl
  · rcases List.mem_cons.mp h with rfl | h
    · rfl
    · obtain ⟨cells, -, rfl⟩ := List.mem_map.mp h
      rfl

theorem lines_headingText {title : String} (h : '\n' ∉ title.toList) (depth : Nat)
    (rest : List Char) :
    lines (headingText depth title ++ rest) =
      [] :: (List.replicate depth '#' ++ ' ' :: title.toList) :: [] :: lines rest := by
  have hhashes := newline_not_mem_replicate depth (c := '#') (by decide)
  have hheading : '\n' ∉ List.replicate depth '#' ++ ' ' :: title.toList := by
    simp [hhashes, h]
  have htext : headingText depth title ++ rest =
      [] ++ '\n' :: ((List.replicate depth '#' ++ ' ' :: title.toList) ++
        '\n' :: ([] ++ '\n' :: rest)) := by
    simp [headingText]
  rw [htext, lines_append, lines_append, lines_append, lines_eq_singleton hheading]
  rfl

/-- The lines of tables: empty ones, headings one level below `depth`, and lines behind bars. -/
theorem mem_lines_markdown {tables : List Table}
    (h : ∀ table ∈ tables, '\n' ∉ table.title.toList) {line : List Char}
    (hline : line ∈ lines (markdown depth tables)) :
    line = [] ∨ line.head? = some '|' ∨
      ∃ table ∈ tables, line = List.replicate (depth + 1) '#' ++ ' ' :: table.title.toList := by
  induction tables with
  | nil => exact Or.inl (List.mem_singleton.mp hline)
  | cons table tables ih =>
      have hrest := ih fun other hother => h other (List.mem_cons_of_mem table hother)
      have hlines : lines (markdown depth (table :: tables)) =
          [] :: (List.replicate (depth + 1) '#' ++ ' ' :: table.title.toList) :: [] ::
            (tableLines table.rows ++ lines (markdown depth tables)) := by
        rw [markdown, List.map_cons, List.flatten_cons, List.append_assoc,
          lines_headingText (h table List.mem_cons_self), ← lines_rowsText_append]
        rfl
      rw [hlines, List.mem_cons, List.mem_cons, List.mem_cons, List.mem_append] at hline
      rcases hline with rfl | rfl | rfl | hbar | htables
      · exact Or.inl rfl
      · exact Or.inr (Or.inr ⟨table, List.mem_cons_self, rfl⟩)
      · exact Or.inl rfl
      · exact Or.inr (Or.inl (head?_of_mem_tableLines hbar))
      · refine (hrest htables).imp_right (Or.imp_right ?_)
        rintro ⟨other, hother, heq⟩
        exact ⟨other, List.mem_cons_of_mem table hother, heq⟩

end AnnotatedValues.Table
