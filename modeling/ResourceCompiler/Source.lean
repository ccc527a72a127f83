import ResourceCompiler.Text.Blank

/-!
# Source text

The normal form of generated code: no blanks at the end of a line, no two empty lines in a row, none
at the start or at the end, and a newline at the end.
-/

namespace ResourceCompiler.Source

open Text

/-- Keeps one of each run of empty lines; `afterEmpty` tells whether one came just before. -/
def collapse (afterEmpty : Bool) : List (List Char) → List (List Char)
  | [] => []
  | line :: rest =>
    if line.isEmpty then
      if afterEmpty then collapse true rest else line :: collapse true rest
    else line :: collapse false rest

def formatChars (cs : List Char) : List Char :=
  let trimmed := (lines cs).map (trimRight isBlank)
  trim (· = '\n') (joinWith ['\n'] (collapse false trimmed)) ++ ['\n']

def format (code : String) : String :=
  String.ofList (formatChars code.toList)

end ResourceCompiler.Source
