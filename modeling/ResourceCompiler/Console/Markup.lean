import ResourceCompiler.Console.Emoji
import ResourceCompiler.Fault
import ResourceCompiler.Text.Width

/-!
# Markup of the console

Tags in square brackets style a text and do not show. A closing tag must close one that is open, a
backslash in front of a tag makes it a text. `Console.plain` is what a text shows without any style.
-/

namespace ResourceCompiler.Console

inductive Piece where
  | text (cs : List Char)
  | tag (name : List Char)

/-- Whether a tag may start with the character. -/
def startsTag (c : Char) : Bool := ('a' ≤ c && c ≤ 'z') || c = '#' || c = '/' || c = '@'

/-- A tag after its opening bracket, and what follows its closing one. -/
def readTag? : List Char → Option (List Char × List Char)
  | c :: cs =>
    if startsTag c then
      let inside := cs.takeWhile fun d => d ≠ ']' && d ≠ '['
      match cs.drop inside.length with
      | ']' :: rest => some (c :: inside, rest)
      | _ => none
    else none
  | [] => none

/-- The text that backslashes in front of a tag leave, and whether they make it a text. -/
def unescaped (slashes : Nat) : List Piece × Bool :=
  (if 2 ≤ slashes then [.text (List.replicate (slashes / 2) '\\')] else [], slashes % 2 = 1)

/-- The pieces of a text, after the characters in `done`, which is reversed. -/
def pieces (fuel : Nat) (done : List Char) (cs : List Char) : List Piece :=
  match fuel, cs with
  | 0, _ | _, [] => [.text done.reverse]
  | n + 1, '[' :: rest =>
    match readTag? rest with
    | none => pieces n ('[' :: done) rest
    | some (inside, after) =>
      let slashes := (done.takeWhile (· = '\\')).length
      let (kept, isText) := unescaped slashes
      let tag := if isText then .text ('[' :: inside ++ [']']) else .tag (Text.cut '=' inside).1
      .text (done.drop slashes).reverse :: (kept ++ tag :: pieces n [] after)
  | n + 1, c :: rest => pieces n (c :: done) rest

/-- Short names of styles. -/
def styleNames : List (String × String) :=
  [("b", "bold"), ("d", "dim"), ("i", "italic"), ("u", "underline"), ("uu", "underline2"),
   ("r", "reverse"), ("s", "strike"), ("o", "overline")]

def styleName (cs : List Char) : String :=
  let name := Text.lower (String.ofList (Text.trim Text.isBlank cs))
  (styleNames.lookup name).getD name

/-- Closes the innermost open style of the name. -/
def close? (name : String) (open? : List String) : Option (List String) :=
  if open?.contains name then some (open?.erase name) else none

/-- What pieces show; the open styles are given with the innermost first. -/
def shown (known : Pictures) (open? : List String) : List Piece → Except Fault (List Char)
  | [] => .ok []
  | .text cs :: rest => do
    let cs := Text.replaceAll ['\\', '['] ['['] cs
    return withPictures known (cs.length + 1) cs ++ (← shown known open? rest)
  | .tag ('/' :: name) :: rest =>
    if (Text.trim Text.isBlank name).isEmpty then
      match open? with
      | _ :: outer => shown known outer rest
      | [] => .error .markup
    else
      match close? (styleName name) open? with
      | some outer => shown known outer rest
      | none => .error .markup
  | .tag name :: rest => shown known (styleName name :: open?) rest

/-- Controls that move the cursor are not shown. -/
def isShown (c : Char) : Bool :=
  !([7, 8, 11, 12, 13].contains c.toNat)

/-- Tabs as spaces up to the next multiple of eight cells. -/
def expandTabs (column : Nat) : List Char → List Char
  | [] => []
  | '\t' :: cs =>
    let n := 8 - column % 8
    List.replicate n ' ' ++ expandTabs (column + n) cs
  | c :: cs => c :: expandTabs (column + Text.cellWidth c) cs

/-- The lines that a text with markup shows. -/
def plain (known : Pictures) (s : String) : Except Fault (List (List Char)) := do
  let cs := s.toList
  let shown ← shown known [] (pieces (cs.length + 1) [] cs)
  return (Text.lines (shown.filter isShown)).map (expandTabs 0)

end ResourceCompiler.Console
