import Mathlib.Algebra.GroupWithZero.Nat
import Mathlib.Data.List.TakeWhile
import Mathlib.Order.Bounds.Basic
import Mathlib.Order.MinMax
import RowSelect.Proofs.Cells
import RowSelect.Proofs.Outcome
import RowSelect.Report

/-!
The columns of a table. Each begins in every line behind as many characters as in the rule, is as
wide as its widest text and holds that text whole. Only white space at the end of a line is missing.
All this is so as long as no text is longer than padding allows.
-/

set_option autoImplicit false

namespace RowSelect.Report.Grid

open RowSelect.Text

def columnStart (widths : List Nat) (j : Nat) : Nat := ((widths.take j).map (· + 3)).sum

/-- A line of that length that has the texts in its columns, whole and with spaces behind them, and
separators between the columns. -/
structure Aligned (length : Nat) (widths : List Nat) (texts : List (List Char)) (line : List Char) :
    Prop where
  length_eq : line.length = length
  count_eq : texts.length = widths.length
  column : ∀ j width text, widths[j]? = some width → texts[j]? = some text →
    text.length ≤ width ∧ (line.drop (columnStart widths j)).take width =
      text ++ List.replicate (width - text.length) ' '
  separator : ∀ j width, widths[j]? = some width → j + 1 < widths.length →
    (line.drop (columnStart widths j + width)).take 3 = [' ', '|', ' ']

def Strips (line stripped : List Char) : Prop :=
  ∃ blanks, line = stripped ++ blanks ∧ (∀ c ∈ blanks, isBlank c = true) ∧
    ∀ c ∈ stripped.getLast?, isBlank c = false

/-- The line has the texts in their columns, once the white space at its end is put back. -/
def ShowsAligned (length : Nat) (widths : List Nat) (texts : List (List Char)) (line : List Char) :
    Prop :=
  ∃ full, Aligned length widths texts full ∧ Strips full line

def columnLengths (rows : List (Fields Json)) (name : String) : Set Nat :=
  {n | n = name.length ∨ ∃ row ∈ rows, ∃ text, IsCell (Fields.get? row name) text ∧ n = text.length}

theorem isGreatest_foldl_max {α : Type} (size : α → Nat) (start : Nat) (xs : List α) :
    IsGreatest {n | n = start ∨ ∃ x ∈ xs, n = size x}
      (xs.foldl (fun w x => max w (size x)) start) := by
  induction xs generalizing start with
  | nil => simp [IsGreatest, upperBounds]
  | cons x xs ih =>
    obtain ⟨hmem, hbound⟩ := ih (max start (size x))
    rw [List.foldl_cons]
    constructor
    · rcases hmem with hstart | ⟨y, hy, hsize⟩
      · rcases max_choice start (size x) with hmax | hmax
        · exact .inl (hstart.trans hmax)
        · exact .inr ⟨x, List.mem_cons_self .., hstart.trans hmax⟩
      · exact .inr ⟨y, List.mem_cons_of_mem _ hy, hsize⟩
    · have hstart := hbound (.inl rfl)
      rintro n (rfl | ⟨y, hy, rfl⟩)
      · exact (le_max_left _ _).trans hstart
      · rcases List.mem_cons.1 hy with rfl | hy
        · exact (le_max_right _ _).trans hstart
        · exact hbound (.inr ⟨y, hy, rfl⟩)

theorem isGreatest_width (rows : List (Fields Json)) (name : String) :
    IsGreatest (columnLengths rows name) (width rows name) := by
  have hlengths : columnLengths rows name =
      {n | n = name.toList.length ∨
        ∃ row ∈ rows, n = (cellText (Fields.get? row name)).length} := by
    simp only [columnLengths, isCell_iff, exists_eq_left, String.length_toList]
  rw [hlengths]
  exact isGreatest_foldl_max _ _ _

def Fits (texts : List (List Char)) (widths : List Nat) : Prop :=
  List.Forall₂ (fun text width => text.length ≤ width) texts widths

theorem fits_names (rows : List (Fields Json)) (names : List String) :
    Fits (names.map String.toList) (names.map (width rows)) := by
  rw [Fits, List.forall₂_map_left_iff, List.forall₂_map_right_iff, List.forall₂_same]
  exact fun name _ => (isGreatest_width rows name).2 (.inl rfl)

theorem fits_cells {rows : List (Fields Json)} {row : Fields Json} (h : row ∈ rows)
    (names : List String) : Fits (cells names row) (names.map (width rows)) := by
  rw [Fits, cells, List.forall₂_map_left_iff, List.forall₂_map_right_iff, List.forall₂_same]
  exact fun name _ => (isGreatest_width rows name).2 (.inr ⟨row, h, _, isCell_iff.2 rfl, rfl⟩)

section Intercalate

variable {α : Type}

theorem intercalate_cons (sep col : List α) (cols : List (List α)) :
    sep.intercalate (col :: cols) = col ++ cols.flatMap (sep ++ ·) := by
  induction cols generalizing col with
  | nil => simp
  | cons next cols ih =>
    rw [List.intercalate_cons_cons, ih, List.flatMap_cons]
    simp

theorem intercalate_append_cons (sep : List α) (before : List (List α)) (col : List α)
    (after : List (List α)) :
    sep.intercalate (before ++ col :: after) =
      before.flatMap (· ++ sep) ++ (col ++ after.flatMap (sep ++ ·)) := by
  induction before with
  | nil => exact intercalate_cons sep col after
  | cons first before ih =>
    have hsplit : ∃ next more, before ++ col :: after = next :: more := by
      cases before <;> simp
    obtain ⟨next, more, hmore⟩ := hsplit
    rw [List.cons_append, hmore, List.intercalate_cons_cons, ← hmore, ih, List.flatMap_cons]
    simp

theorem length_intercalate (sep : List α) (cols : List (List α)) :
    (sep.intercalate cols).length =
      (cols.map List.length).sum + sep.length * (cols.length - 1) := by
  cases cols with
  | nil => simp
  | cons col cols =>
    induction cols generalizing col with
    | nil => simp
    | cons next cols ih =>
      rw [List.intercalate_cons_cons, List.length_append, List.length_append, ih]
      simp only [List.map_cons, List.sum_cons, List.length_cons, Nat.add_sub_cancel]
      rw [Nat.mul_succ]
      omega

end Intercalate

theorem length_spaced {width : Nat} {text : List Char} (h : text.length ≤ width) :
    (spaced width text).length = width := by
  simp only [spaced, List.length_append, List.length_replicate]
  omega

theorem map_length_zipWith_spaced {texts : List (List Char)} {widths : List Nat}
    (h : Fits texts widths) : (List.zipWith spaced widths texts).map List.length = widths := by
  induction h with
  | nil => rfl
  | cons hfits _ ih => rw [List.zipWith_cons_cons, List.map_cons, length_spaced hfits, ih]

theorem drop_columnStart {cols : List (List Char)} {j : Nat} {col : List Char}
    (h : cols[j]? = some col) :
    ([' ', '|', ' '].intercalate cols).drop (columnStart (cols.map List.length) j) =
      col ++ (cols.drop (j + 1)).flatMap ([' ', '|', ' '] ++ ·) := by
  obtain ⟨hj, rfl⟩ := List.getElem?_eq_some_iff.1 h
  have hcols : cols = cols.take j ++ cols[j] :: cols.drop (j + 1) := by
    rw [← List.drop_eq_getElem_cons hj, List.take_append_drop]
  have hline := intercalate_append_cons [' ', '|', ' '] (cols.take j) cols[j] (cols.drop (j + 1))
  rw [← hcols] at hline
  rw [hline]
  refine List.drop_left' ?_
  rw [columnStart, List.length_flatMap, ← List.map_take, List.map_map]
  simp [Function.comp_def]

theorem Fits.length_le {texts : List (List Char)} {widths : List Nat} (h : Fits texts widths)
    {j width : Nat} {text : List Char} (hwidth : widths[j]? = some width)
    (htext : texts[j]? = some text) : text.length ≤ width := by
  obtain ⟨hj, rfl⟩ := List.getElem?_eq_some_iff.1 hwidth
  obtain ⟨hj', rfl⟩ := List.getElem?_eq_some_iff.1 htext
  exact h.get hj' hj

theorem aligned_intercalate {texts : List (List Char)} {widths : List Nat} (h : Fits texts widths) :
    Aligned (rule widths).length widths texts
      ([' ', '|', ' '].intercalate (List.zipWith spaced widths texts)) := by
  have hwidths := map_length_zipWith_spaced h
  have hcount : texts.length = widths.length := h.length_eq
  generalize hcols : List.zipWith spaced widths texts = cols at hwidths
  refine ⟨?_, hcount, fun j width text hwidth htext => ?_, fun j width hwidth hnext => ?_⟩
  · have hnumber : cols.length = widths.length := by rw [← hwidths, List.length_map]
    rw [rule, length_intercalate, length_intercalate, hwidths]
    simp [Function.comp_def, hnumber]
  · have hfits := h.length_le hwidth htext
    have hcol : cols[j]? = some (spaced width text) := by
      simp [← hcols, List.getElem?_zipWith, hwidth, htext]
    have hdrop := drop_columnStart hcol
    rw [hwidths] at hdrop
    rw [hdrop, List.take_left' (length_spaced hfits)]
    exact ⟨hfits, rfl⟩
  · rw [← hwidths, List.getElem?_map, Option.map_eq_some_iff] at hwidth
    obtain ⟨col, hcol, hlength⟩ := hwidth
    have hdrop := drop_columnStart hcol
    rw [hwidths] at hdrop
    have hlater : j + 1 < cols.length := by
      rw [← hwidths, List.length_map] at hnext
      exact hnext
    rw [← List.drop_drop, hdrop, List.drop_left' hlength, List.drop_eq_getElem_cons hlater]
    rfl

theorem strips_trimEnd (line : List Char) : Strips line (trimEnd line) := by
  refine ⟨(line.reverse.takeWhile isBlank).reverse, ?_, fun c hc => ?_, fun c hc => ?_⟩
  · rw [trimEnd, ← List.reverse_append, List.takeWhile_append_dropWhile, List.reverse_reverse]
  · exact List.mem_takeWhile_imp (List.mem_reverse.1 hc)
  · rw [trimEnd, List.getLast?_reverse] at hc
    have hstop := List.head?_dropWhile_not isBlank line.reverse
    rwa [Option.mem_def.1 hc] at hstop

def shown (widths : List Nat) (texts : List (List Char)) : List Char :=
  trimEnd ([' ', '|', ' '].intercalate (List.zipWith spaced widths texts))

theorem line_eq_ok {widths : List Nat} (h : ∀ width ∈ widths, width ≤ maxWidth)
    (texts : List (List Char)) : line widths texts = .ok (shown widths texts) := by
  have hpad : ∀ p ∈ widths.zip texts, pad p.1 p.2 = .ok (spaced p.1 p.2) :=
    fun p hp => if_pos (h p.1 (List.of_mem_zip hp).1)
  rw [line, mapM_eq_ok hpad, List.map_zip_eq_zipWith]
  rfl

theorem showsAligned_shown {texts : List (List Char)} {widths : List Nat} (h : Fits texts widths) :
    ShowsAligned (rule widths).length widths texts (shown widths texts) :=
  ⟨_, aligned_intercalate h, strips_trimEnd _⟩

theorem footer_eq (count : Nat) :
    footer count = ("(" ++ toString count ++ if count = 1 then " row)" else " rows)").toList := by
  have hdigits : (toString count).toList = Nat.toDigits 10 count := by simp [toString, Nat.repr]
  rw [String.toList_append, String.toList_append, hdigits]
  rfl

/-- No name and no text under it is longer than padding allows. -/
def Narrow (rows : List (Fields Json)) : Prop :=
  ∀ name ∈ header rows, ∀ n ∈ columnLengths rows name, n ≤ maxWidth

theorem Narrow.width_le {rows : List (Fields Json)} (h : Narrow rows) :
    ∀ w ∈ (header rows).map (width rows), w ≤ maxWidth := by
  intro w hw
  obtain ⟨name, hname, rfl⟩ := List.mem_map.1 hw
  exact h name hname _ (isGreatest_width rows name).1

theorem narrow_of_width_le {rows : List (Fields Json)}
    (h : ∀ name ∈ header rows, width rows name ≤ maxWidth) : Narrow rows :=
  fun name hname _ hn => ((isGreatest_width rows name).2 hn).trans (h name hname)

theorem exists_wide {rows : List (Fields Json)} (h : ¬Narrow rows) :
    ∃ name ∈ header rows, maxWidth < width rows name := by
  unfold Narrow at h
  push Not at h
  obtain ⟨name, hname, n, hn, hlt⟩ := h
  exact ⟨name, hname, hlt.trans_le ((isGreatest_width rows name).2 hn)⟩

theorem write_eq_ok {rows : List (Fields Json)} {color : Bool} {above : List Char}
    (h : Narrow rows) (htop : top (header rows) ((header rows).map (width rows)) color = .ok above) :
    write rows color = .ok (above ++
      (rows.map fun row => shown ((header rows).map (width rows)) (cells (header rows) row)).flatMap
        (· ++ ['\n']) ++ footer rows.length) := by
  have hlines : rows.mapM (fun row =>
        line ((header rows).map (width rows)) (cells (header rows) row)) =
      .ok (rows.map fun row => shown ((header rows).map (width rows)) (cells (header rows) row)) :=
    mapM_eq_ok fun row _ => line_eq_ok h.width_le (cells (header rows) row)
  simp only [write, htop, hlines, ok_bind]
  rfl

theorem exists_write {rows : List (Fields Json)} (color : Bool) (h : Narrow rows) :
    ∃ text, write rows color = .ok text := by
  have htop : ∃ above, top (header rows) ((header rows).map (width rows)) color = .ok above := by
    rw [top, line_eq_ok h.width_le]
    split
    · exact ⟨_, rfl⟩
    · exact ⟨_, rfl⟩
  obtain ⟨above, habove⟩ := htop
  exact ⟨_, write_eq_ok h habove⟩

theorem exists_write_eq_error {rows : List (Fields Json)} (color : Bool) (h : ¬Narrow rows) :
    ∃ fault, write rows color = .error fault := by
  obtain ⟨name, hname, hwide⟩ := exists_wide h
  have hpad : ∃ p ∈ (header rows).map fun name => (width rows name, name.toList),
      ∃ fault, pad p.1 p.2 = .error fault :=
    ⟨_, List.mem_map_of_mem hname, _, if_neg (Nat.not_le.2 hwide)⟩
  obtain ⟨fault, hfault⟩ := exists_mapM_eq_error hpad
  -- The heading is padded before any row, and to the widths that all lines have.
  refine ⟨fault, ?_⟩
  rw [write, top, if_neg (List.ne_nil_of_mem hname), line, List.zip_map', hfault]
  rfl

/-- A table of rows with at least one name: the names over a rule, then a line for each row, then
how many rows there are. Each column is as wide as its longest text, the name included. The rule is
as many dashes for each column; it is as long as each of the other lines before the white space at
its end is cut off, and in all of these the texts stand whole in their columns. This takes texts that
are no longer than padding allows; a longer one, and there is no table. -/
theorem render_table_aligned {rows : List (Fields Json)} (h : ∃ row ∈ rows, row ≠ []) :
    ListsFirstSeen (rows.flatMap Fields.names) (header rows) ∧
    (Narrow rows → ∃ widths rule heading lines,
      render rows .table false = .ok (.ofList (heading ++ '\n' :: rule ++ '\n' ::
        lines.flatMap (· ++ ['\n']) ++
        ("(" ++ toString rows.length ++ if rows.length = 1 then " row)" else " rows)").toList)) ∧
      List.Forall₂ (fun name width => IsGreatest (columnLengths rows name) width)
        (header rows) widths ∧
      rule = ['-', '+', '-'].intercalate (widths.map (List.replicate · '-')) ∧
      ShowsAligned rule.length widths ((header rows).map String.toList) heading ∧
      List.Forall₂ (fun row line => ∃ texts, HasCells (header rows) row texts ∧
        ShowsAligned rule.length widths texts line) rows lines) ∧
    (¬Narrow rows → ∃ fault, render rows .table false = .error (.width fault)) := by
  refine ⟨listsFirstSeen_header rows, fun hnarrow => ?_, fun hwide => ?_⟩
  · have htop : top (header rows) ((header rows).map (width rows)) false = .ok
        (shown ((header rows).map (width rows)) ((header rows).map String.toList) ++
          '\n' :: rule ((header rows).map (width rows)) ++ ['\n']) := by
      rw [top, if_neg (header_ne_nil h), line_eq_ok hnarrow.width_le]
      rfl
    refine ⟨(header rows).map (width rows), _, _,
      rows.map fun row => shown ((header rows).map (width rows)) (cells (header rows) row),
      ?_, ?_, rfl, showsAligned_shown (fits_names rows _), ?_⟩
    · rw [render, write_eq_ok hnarrow htop, footer_eq]
      simp [Except.map, rule]
    · rw [List.forall₂_map_right_iff, List.forall₂_same]
      exact fun name _ => isGreatest_width rows name
    · rw [List.forall₂_map_right_iff, List.forall₂_same]
      exact fun row hrow => ⟨_, hasCells_iff.2 rfl, showsAligned_shown (fits_cells hrow _)⟩
  · obtain ⟨fault, hfault⟩ := exists_write_eq_error false hwide
    exact ⟨fault, by rw [render, hfault]; rfl⟩

def places : List (Fields Json) :=
  [[("é", .string "x\u3000"), ("n", .bool true)], [("n", .string "ab")], []]

def wideText : String := .ofList (List.replicate 0x10000 'x')

def wideRow (name : String) : Fields Json := [(name, .string wideText)]

theorem not_narrow_wideRow (name : String) : ¬Narrow [wideRow name] := by
  intro h
  have hget : Fields.get? (wideRow name) name = some (.string wideText) := by
    simp [wideRow, Fields.get?]
  have hcell : IsCell (Fields.get? (wideRow name) name) wideText.toList := by
    rw [hget]
    exact .string wideText
  have hlength : wideText.toList.length = 0x10000 :=
    (congrArg List.length String.toList_ofList).trans List.length_replicate
  have hname : name ∈ header [wideRow name] := by simp [header, Fields.names, wideRow]
  have hle := h name hname _ (.inr ⟨_, List.mem_singleton_self _, _, hcell, rfl⟩)
  rw [hlength] at hle
  exact absurd hle (by decide)

theorem render_table_aligned_places :
    (∃ row ∈ places, row ≠ []) ∧ Narrow places ∧
    render places .table false =
      .ok "é  | n\n---+-----\nx\u3000 | true\n   | ab\n   |\n(3 rows)" ∧
    (∃ widths, List.Forall₂ (fun name width => IsGreatest (columnLengths places name) width)
      (header places) widths) ∧
    (∃ row ∈ [wideRow "x"], row ≠ []) ∧
    ∃ fault, render [wideRow "x"] .table false = .error (.width fault) := by
  have hplaces : ∃ row ∈ places, row ≠ [] := ⟨_, List.mem_cons_self .., List.cons_ne_nil _ _⟩
  have hwide : ∃ row ∈ [wideRow "x"], row ≠ [] := ⟨_, List.mem_cons_self .., List.cons_ne_nil _ _⟩
  have hnarrow : Narrow places := narrow_of_width_le (by decide +kernel)
  obtain ⟨-, haligned, -⟩ := render_table_aligned hplaces
  obtain ⟨-, -, herror⟩ := render_table_aligned hwide
  obtain ⟨widths, -, -, -, -, hwidths, -⟩ := haligned hnarrow
  exact ⟨hplaces, hnarrow, by decide +kernel, ⟨widths, hwidths⟩, hwide,
    herror (not_narrow_wideRow "x")⟩

theorem not_forall_render_table :
    ¬ ∀ rows : List (Fields Json), (∃ row ∈ rows, row ≠ []) →
      ∃ text, render rows .table false = .ok text := by
  intro h
  obtain ⟨text, htext⟩ := h [wideRow "x"] ⟨_, List.mem_cons_self .., List.cons_ne_nil _ _⟩
  obtain ⟨fault, hfault⟩ := exists_write_eq_error false (not_narrow_wideRow "x")
  rw [render, hfault] at htext
  cases htext

end RowSelect.Report.Grid
