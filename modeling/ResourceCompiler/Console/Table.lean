import ResourceCompiler.Console.Markup
import ResourceCompiler.Value

/-!
# Tables

Columns as wide as their widest cell, with a blank on each side, under a centred title. Cells are texts
with markup; null is an empty cell, and no other value can be one.
-/

namespace ResourceCompiler.Console

inductive Align where
  | left | right
deriving DecidableEq

structure Column where
  title : String
  align : Align := .left

/-- The lines of a frame: each a left end, a filling, what stands between columns and a right end. -/
structure Rule where
  left : Char
  fill : Char
  between : Char
  right : Char

structure Frame where
  top : Rule
  below : Rule
  bottom : Rule
  /-- The ends and separators of rows; their filling is not used. -/
  row : Rule

/-- A line below the header and nothing else. -/
def plainFrame : Frame where
  top := ⟨' ', ' ', ' ', ' '⟩
  below := ⟨' ', '─', '─', ' '⟩
  bottom := ⟨' ', ' ', ' ', ' '⟩
  row := ⟨' ', ' ', ' ', ' '⟩

/-- Lines around the table and between its columns, with round corners. -/
def roundFrame : Frame where
  top := ⟨'╭', '─', '┬', '╮'⟩
  below := ⟨'├', '─', '┼', '┤'⟩
  bottom := ⟨'╰', '─', '┴', '╯'⟩
  row := ⟨'│', ' ', '│', '│'⟩

structure Table where
  title : String
  frame : Frame
  columns : List Column
  rows : List (List Value)

/-- The lines of a cell. -/
abbrev Cell := List (List Char)

namespace Table

def cellText (v : Value) : Except Fault String :=
  match v with
  | .str s => .ok s
  | .null => .ok ""
  | _ => .error .notRenderable

def cellWidth (c : Cell) : Nat := (c.map Text.cellLength).foldl max 0

/-- The width of each column over all rows. -/
def widths (rows : List (List Cell)) : List Nat :=
  rows.foldl (fun ws row => List.zipWith max ws (row.map cellWidth))
    ((rows.head?.getD []).map cellWidth)

/-- A line of a cell in its column. -/
def fit (align : Align) (width : Nat) (cs : List Char) : List Char :=
  let pad := List.replicate (width - Text.cellLength cs) ' '
  match align with
  | .left => cs ++ pad
  | .right => pad ++ cs

def ruleChars (r : Rule) (widths : List Nat) : List Char :=
  r.left :: (Text.joinWith [r.between] (widths.map fun w => List.replicate (w + 2) r.fill) ++ [r.right])

def rowLine (f : Frame) (columns : List (Align × Nat)) (cells : List (List Char)) : List Char :=
  let texts := List.zipWith (fun (align, w) cs => ' ' :: fit align w cs ++ [' ']) columns cells
  f.row.left :: (Text.joinWith [f.row.between] texts ++ [f.row.right])

/-- The lines of a row, as many as its longest cell has. -/
def rowLines (f : Frame) (columns : List (Align × Nat)) (row : List Cell) : List (List Char) :=
  let height := (row.map List.length).foldl max 1
  (List.range height).map fun i => rowLine f columns (row.map fun cell => cell[i]?.getD [])

def centred (width : Nat) (cs : List Char) : List Char :=
  List.replicate ((width - Text.cellLength cs) / 2) ' ' ++ cs

def lines (known : Pictures) (t : Table) : Except Fault (List String) := do
  let texts ← t.rows.mapM fun row => row.mapM cellText
  let body ← texts.mapM fun row => row.mapM (plain known)
  let header ← t.columns.mapM fun c => plain known c.title
  let title ← plain known t.title
  let ws := widths (header :: body)
  let columns := List.zip (t.columns.map (·.align)) ws
  let width := (ruleChars t.frame.top ws).length
  let lines := title.map (centred width) ++ [ruleChars t.frame.top ws] ++
    rowLines t.frame columns header ++ [ruleChars t.frame.below ws] ++
    body.flatMap (rowLines t.frame columns) ++ [ruleChars t.frame.bottom ws]
  return lines.map String.ofList

end Table

end ResourceCompiler.Console
