import Mathlib.Algebra.BigOperators.Group.List.Basic
import Mathlib.Algebra.GroupWithZero.Nat
import Mathlib.Data.List.Forall2
import ShopTables.Command.Listing

/-!
# Aligned rows

```
  id   | name          the header line
  -----+-----          the ruler
  a-12 | lamp          a line for each row
```

All lines of a printed table have one length, and in each of them a column is at the same place:
the texts of a line are filled up to the widths of their columns, and any two of them are three
characters apart, whichever separator is between them (`field_join`). No text is longer than its
column is wide, since a width is the greatest number of a list with the lengths of all cells and
the bytes of the header, which are at least as many as its characters (`width_header`,
`width_cell`). So nothing is cut (`rows_aligned`).
-/

namespace ShopTables.Listing

/-! ### The lines of a table -/

/-- The widths of the columns of a printed table. -/
def tableWidths (columns : List Column) (rows : List Row) : List Nat :=
  widths (columns.map (·.name)) (rows.map fun row => row.map fun v => v.display.toList)

def headerLine (columns : List Column) (rows : List Row) : List Char :=
  rowLine (tableWidths columns rows) (columns.map (·.name.toList))

def ruler (columns : List Column) (rows : List Row) : List Char :=
  ruleLine (tableWidths columns rows)

/-- The line of a row, in the table of all rows. -/
def cellLine (columns : List Column) (rows : List Row) (row : Row) : List Char :=
  rowLine (tableWidths columns rows) (row.map fun v => v.display.toList)

theorem rows_eq_lines (columns : List Column) (rows : List Row) :
    Listing.rows columns rows = String.ofList (lines (headerLine columns rows
      :: ruler columns rows :: (rows.map (cellLine columns rows) ++ [countLine rows.length]))) := by
  rw [Listing.rows, headerLine, List.map_map, List.map_map]
  rfl

/-! ### Where columns are -/

/-- The place where a column begins: the columns before it are each followed by a separator. -/
def offset (ws : List Nat) (i : Nat) : Nat := ((ws.take i).map (· + 3)).sum

/-- The length of a line: no separator follows the last column. -/
def lineLength (ws : List Nat) : Nat := offset ws ws.length - 3

/-- What a line has where a column is that has a width. -/
def field (ws : List Nat) (i width : Nat) (line : List Char) : List Char :=
  (line.drop (offset ws i)).take width

theorem join_cons_cons (separator part next : List Char) (parts : List (List Char)) :
    join separator (part :: next :: parts)
      = part ++ (separator ++ join separator (next :: parts)) := rfl

theorem offset_cons_succ (w : Nat) (ws : List Nat) (i : Nat) :
    offset (w :: ws) (i + 1) = w + 3 + offset ws i := rfl

theorem lineLength_cons_cons (w v : Nat) (ws : List Nat) :
    lineLength (w :: v :: ws) = w + 3 + lineLength (v :: ws) := by
  have hpos : offset (v :: ws) (ws.length + 1) = v + 3 + offset ws ws.length := rfl
  have hlong : offset (w :: v :: ws) (ws.length + 1 + 1)
      = w + 3 + offset (v :: ws) (ws.length + 1) := rfl
  simp only [lineLength, List.length_cons]
  omega

variable {separator : List Char} (hseparator : separator.length = 3)

include hseparator

theorem length_join (parts : List (List Char)) :
    (join separator parts).length = lineLength (parts.map List.length) := by
  induction parts with
  | nil => rfl
  | cons part parts ih =>
    cases parts with
    | nil =>
      show (part ++ []).length = part.length + 3 + 0 - 3
      rw [List.append_nil]
      omega
    | cons next parts =>
      rw [join_cons_cons, List.length_append, List.length_append, hseparator, ih]
      simp only [List.map_cons, lineLength_cons_cons, Nat.add_assoc]

/-- Parts that are joined are found at the places of their columns. -/
theorem field_join {parts : List (List Char)} {i : Nat} {part : List Char}
    (h : parts[i]? = some part) :
    field (parts.map List.length) i part.length (join separator parts) = part := by
  induction parts generalizing i with
  | nil => cases h
  | cons first parts ih =>
    cases i with
    | zero =>
      obtain rfl := Option.some.inj h
      cases parts with
      | nil => exact (congrArg (·.take first.length) (List.append_nil first)).trans List.take_length
      | cons next parts =>
        rw [join_cons_cons]
        exact List.take_left
    | succ i =>
      cases parts with
      | nil => cases h
      | cons next parts =>
        have hlength : (first ++ separator).length = first.length + 3 := by
          rw [List.length_append, hseparator]
        rw [join_cons_cons, ← List.append_assoc, field, List.map_cons, offset_cons_succ, ← hlength,
          ← List.drop_drop, List.drop_left]
        exact ih h

omit hseparator

/-! ### Filling up -/

/-- Do texts fit into columns of some widths? -/
abbrev Fit : List (List Char) → List Nat → Prop := List.Forall₂ (·.length ≤ ·)

/-- Texts that fit their columns fill them. -/
theorem Fit.length_pad {cells : List (List Char)} {ws : List Nat} (h : Fit cells ws) :
    ((cells.zip ws).map fun (cell, w) => pad w cell).map List.length = ws := by
  induction h with
  | nil => rfl
  | cons hfits _ ih =>
    refine List.cons_eq_cons.mpr ⟨?_, ih⟩
    simp only [pad, List.length_append, List.length_replicate]
    omega

/-- A line of texts that fit has the length of all lines. -/
theorem Fit.length_rowLine {cells : List (List Char)} {ws : List Nat} (h : Fit cells ws) :
    (rowLine ws cells).length = lineLength ws := by
  rw [rowLine, length_join rfl, h.length_pad]

/-- And each of the texts is where its column is, filled up with blanks. -/
theorem Fit.field_rowLine {cells : List (List Char)} {ws : List Nat} (h : Fit cells ws) {i w : Nat}
    {cell : List Char} (hw : ws[i]? = some w) (hcell : cells[i]? = some cell) :
    cell.length ≤ w
      ∧ field ws i w (rowLine ws cells) = cell ++ List.replicate (w - cell.length) ' ' := by
  have hpart : ((cells.zip ws).map fun (cell, w) => pad w cell)[i]? = some (pad w cell) := by
    have hzip : (cells.zip ws)[i]? = some (cell, w) := List.getElem?_zip_eq_some.mpr ⟨hcell, hw⟩
    rw [List.getElem?_map, hzip]
    rfl
  have hlength : (pad w cell).length = w := by
    have hlengths := congrArg (·[i]?) h.length_pad
    dsimp only at hlengths
    rw [List.getElem?_map, hpart, hw] at hlengths
    exact Option.some.inj hlengths
  have hfield : field _ i _ (join " | ".toList _) = _ := field_join rfl hpart
  rw [h.length_pad, hlength] at hfield
  refine ⟨?_, hfield⟩
  rw [pad, List.length_append] at hlength
  omega

theorem length_ruleLine (ws : List Nat) : (ruleLine ws).length = lineLength ws := by
  rw [ruleLine, length_join rfl, List.map_map]
  refine congrArg lineLength ((List.map_congr_left fun w _ => ?_).trans (List.map_id ws))
  exact List.length_replicate

theorem field_ruleLine {ws : List Nat} {i w : Nat} (hw : ws[i]? = some w) :
    field ws i w (ruleLine ws) = List.replicate w '-' := by
  have hpart : (ws.map fun w => List.replicate w '-')[i]? = some (List.replicate w '-') := by
    rw [List.getElem?_map, hw]
    rfl
  have hfield : field _ i _ (join "-+-".toList _) = _ := field_join rfl hpart
  have hlengths : (ws.map fun w => List.replicate w '-').map List.length = ws := by
    rw [List.map_map]
    refine (List.map_congr_left fun w _ => ?_).trans (List.map_id ws)
    exact List.length_replicate
  rwa [hlengths, List.length_replicate] at hfield

/-! ### Widths -/

theorem le_greatest {n : Nat} {ns : List Nat} (h : n ∈ ns) : n ≤ greatest ns := by
  rw [greatest, List.foldl_max]
  exact Nat.le_trans (List.le_max?_getD_of_mem h) (Nat.le_max_right _ _)

/-- A text has at least as many bytes as characters. -/
theorem length_le_utf8ByteSize (s : String) : s.toList.length ≤ s.utf8ByteSize := by
  rw [← String.size_toByteArray, ← String.utf8Encode_toList, List.utf8Encode,
    List.size_toByteArray, List.length_flatMap]
  simp only [String.length_utf8EncodeChar]
  have hone : ∀ n ∈ s.toList.map Char.utf8Size, 1 ≤ n := by
    intro n hn
    obtain ⟨c, -, rfl⟩ := List.mem_map.mp hn
    exact c.utf8Size_pos
  simpa only [List.length_map] using List.length_le_sum_of_one_le _ hone

variable {columns : List Column} {rows : List Row}

variable (rows) in
theorem getElem?_tableWidths {i : Nat} {column : Column} (h : columns[i]? = some column) :
    (tableWidths columns rows)[i]?
      = some (width i column.name (rows.map fun row => row.map fun v => v.display.toList)) := by
  rw [tableWidths, widths, List.getElem?_map, List.getElem?_zipIdx, List.getElem?_map, h]
  simp only [Option.map_some, Nat.zero_add]

theorem length_tableWidths : (tableWidths columns rows).length = columns.length := by
  rw [tableWidths, widths, List.length_map, List.length_zipIdx, List.length_map]

/-- The names of the columns fit. -/
theorem fit_names : Fit (columns.map (·.name.toList)) (tableWidths columns rows) := by
  refine List.forall₂_iff_get.mpr ⟨?_, fun i hi hi' => ?_⟩
  · rw [List.length_map, length_tableWidths]
  · rw [List.length_map] at hi
    have hwidth := getElem?_tableWidths rows (List.getElem?_eq_getElem hi)
    rw [List.getElem?_eq_getElem hi'] at hwidth
    rw [List.get_eq_getElem, List.get_eq_getElem, List.getElem_map, Option.some.inj hwidth]
    exact Nat.le_trans (length_le_utf8ByteSize _) (le_greatest List.mem_cons_self)

/-- The cells of each row that is as wide as the table fit. -/
theorem fit_cells {row : Row} (hrow : row ∈ rows) (hlength : row.length = columns.length) :
    Fit (row.map fun v => v.display.toList) (tableWidths columns rows) := by
  refine List.forall₂_iff_get.mpr ⟨?_, fun i hi hi' => ?_⟩
  · rw [List.length_map, length_tableWidths, hlength]
  · rw [List.length_map] at hi
    have hwidth := getElem?_tableWidths rows (List.getElem?_eq_getElem (hlength ▸ hi))
    rw [List.getElem?_eq_getElem hi'] at hwidth
    rw [List.get_eq_getElem, List.get_eq_getElem, List.getElem_map, Option.some.inj hwidth]
    refine le_greatest (List.mem_cons_of_mem _ (List.mem_filterMap.mpr ?_))
    refine ⟨_, List.mem_map_of_mem hrow, ?_⟩
    rw [List.getElem?_map, List.getElem?_eq_getElem hi]
    rfl

/-! ### The whole table -/

/-- Printed rows are aligned. If all rows are as wide as the table, its header, its ruler and the
lines of its rows have one length, and in each of them a column takes up the same range of
characters, which no text in it exceeds: there stands the name of the column, a rule, or the cell of
the row, and after the texts only blanks. -/
theorem rows_aligned (hrows : ∀ row ∈ rows, row.length = columns.length) :
    Listing.rows columns rows = String.ofList (lines (headerLine columns rows
        :: ruler columns rows :: (rows.map (cellLine columns rows) ++ [countLine rows.length])))
      ∧ (∀ line ∈ headerLine columns rows :: ruler columns rows :: rows.map (cellLine columns rows),
        line.length = lineLength (tableWidths columns rows))
      ∧ ∀ (i : Nat) (column : Column), columns[i]? = some column →
        ∃ w, (tableWidths columns rows)[i]? = some w
          ∧ (column.name.toList.length ≤ w
            ∧ field (tableWidths columns rows) i w (headerLine columns rows)
              = column.name.toList ++ List.replicate (w - column.name.toList.length) ' ')
          ∧ field (tableWidths columns rows) i w (ruler columns rows) = List.replicate w '-'
          ∧ ∀ row ∈ rows, ∀ v, row[i]? = some v →
            v.display.toList.length ≤ w
              ∧ field (tableWidths columns rows) i w (cellLine columns rows row)
                = v.display.toList ++ List.replicate (w - v.display.toList.length) ' ' := by
  refine ⟨rows_eq_lines columns rows, fun line hline => ?_, fun i column hcolumn => ?_⟩
  · simp only [List.mem_cons, List.mem_map] at hline
    obtain rfl | rfl | ⟨row, hrow, rfl⟩ := hline
    · exact fit_names.length_rowLine
    · exact length_ruleLine _
    · exact (fit_cells hrow (hrows row hrow)).length_rowLine
  · have hwidth := getElem?_tableWidths rows hcolumn
    have hname : (columns.map (·.name.toList))[i]? = some column.name.toList := by
      rw [List.getElem?_map, hcolumn]
      rfl
    refine ⟨_, hwidth, fit_names.field_rowLine hwidth hname, field_ruleLine hwidth,
      fun row hrow v hv => (fit_cells hrow (hrows row hrow)).field_rowLine hwidth ?_⟩
    rw [List.getElem?_map, hv]
    rfl

/-- A table of two columns, of which one has a name with more bytes than characters. -/
def lampColumns : List Column :=
  [⟨"id", .text, false, true, "lamp", none⟩, ⟨"größe", .text, true, false, "lamp", none⟩]

def lamps : List Row := [[.text "a-12", .null], [.text "b", .text "日本"]]

/-- Its second column is seven wide and begins after seven characters of each line. -/
theorem rows_aligned_lamps :
    (∀ row ∈ lamps, row.length = lampColumns.length)
      ∧ (∀ line ∈ headerLine lampColumns lamps :: ruler lampColumns lamps
          :: lamps.map (cellLine lampColumns lamps), line.length = 14)
      ∧ field [4, 7] 1 7 (headerLine lampColumns lamps) = "größe  ".toList
      ∧ field [4, 7] 1 7 (ruler lampColumns lamps) = "-------".toList
      ∧ field [4, 7] 1 7 (cellLine lampColumns lamps [.text "b", .text "日本"])
        = "日本     ".toList := by
  have hrows : ∀ row ∈ lamps, row.length = lampColumns.length := by decide
  have hwidths : tableWidths lampColumns lamps = [4, 7] := by decide +kernel
  obtain ⟨-, hlines, hcolumns⟩ := rows_aligned hrows
  obtain ⟨w, hw, ⟨-, hname⟩, hrule, hcells⟩ :=
    hcolumns 1 ⟨"größe", .text, true, false, "lamp", none⟩ rfl
  rw [hwidths] at hlines hw hname hrule hcells
  obtain rfl := Option.some.inj hw
  exact ⟨hrows, hlines, hname, hrule,
    (hcells _ (List.mem_cons_of_mem _ List.mem_cons_self) (.text "日本") rfl).2⟩

end ShopTables.Listing
