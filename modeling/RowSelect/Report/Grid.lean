import RowSelect.Report.Cells
import RowSelect.Text.Blank

/-!
Rows as lines of text with aligned columns, under a heading and a rule and above the number of rows.
Widths count characters. Padding takes a width of 16 bits; a wider column ends the program.
-/

set_option autoImplicit false

namespace RowSelect.Report.Grid

open RowSelect.Text

structure WidthFault where
  width : Nat
  deriving DecidableEq, Repr

def tooWide : String := "Formatting argument out of range"

def maxWidth : Nat := 0xFFFF

def spaced (width : Nat) (text : List Char) : List Char :=
  text ++ List.replicate (width - text.length) ' '

/-- The width alone decides; it does not matter how long the text is. -/
def pad (width : Nat) (text : List Char) : Except WidthFault (List Char) :=
  if width ≤ maxWidth then .ok (spaced width text) else .error ⟨width⟩

def line (widths : List Nat) (cs : List (List Char)) : Except WidthFault (List Char) :=
  ((widths.zip cs).mapM fun (width, text) => pad width text).map fun padded =>
    trimEnd ([' ', '|', ' '].intercalate padded)

def rule (widths : List Nat) : List Char :=
  ['-', '+', '-'].intercalate (widths.map (List.replicate · '-'))

def width (rows : List (Fields Json)) (name : String) : Nat :=
  rows.foldl (fun w row => max w (cellText (Fields.get? row name)).length) name.toList.length

def boldOn : List Char := ['\x1b', '[', '1', 'm']

def stylesOff : List Char := ['\x1b', '[', '0', 'm']

/-- Turns bold face on again behind each place where the text turns styles off. -/
def keepBold : List Char → List Char
  | '\x1b' :: '[' :: '0' :: 'm' :: rest => stylesOff ++ boldOn ++ keepBold rest
  | c :: rest => c :: keepBold rest
  | [] => []

def bold (text : List Char) : List Char := boldOn ++ keepBold text ++ stylesOff

def footer (count : Nat) : List Char :=
  '(' :: Nat.toDigits 10 count ++ (if count = 1 then " row)" else " rows)").toList

def top (names : List String) (widths : List Nat) (color : Bool) : Except WidthFault (List Char) :=
  if names = [] then .ok []
  else (line widths (names.map String.toList)).map fun heading =>
    (if color then bold heading else heading) ++ '\n' :: rule widths ++ ['\n']

def write (rows : List (Fields Json)) (color : Bool) : Except WidthFault (List Char) := do
  let names := header rows
  let widths := names.map (width rows)
  let above ← top names widths color
  let lines ← rows.mapM fun row => line widths (cells names row)
  return above ++ lines.flatMap (· ++ ['\n']) ++ footer rows.length

end RowSelect.Report.Grid
