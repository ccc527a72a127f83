import ResourceCompiler.Text.Blank

/-!
# Places in a text

A cursor is what follows a place, with the number of characters before it, its line and its column.
Predicates on the next character take its absence, the end of the text, into account.
-/

namespace ResourceCompiler.Yaml

/-- The characters that may stand in a text. -/
def isAllowed (c : Char) : Bool :=
  let n := c.toNat
  n = 9 || n = 10 || n = 13 || (0x20 ≤ n && n ≤ 0x7e) || n = 0x85 || (0xa0 ≤ n && n ≤ 0xfffd) ||
    0x10000 ≤ n

def isBreak (c : Char) : Bool :=
  c = '\n' || c = '\r' || c = '\u0085' || c = '\u2028' || c = '\u2029'

def byteOrderMark : Char := '\ufeff'

/-- Whether a line ends before the character. -/
def endsLine (c? : Option Char) : Bool :=
  c?.all isBreak

/-- Whether a word ends before the character. -/
def endsWord (c? : Option Char) : Bool :=
  c?.all fun c => c = ' ' || isBreak c

/-- Whether a token ends before the character: a tab ends it too. -/
def endsToken (c? : Option Char) : Bool :=
  c?.all fun c => c = ' ' || c = '\t' || isBreak c

structure Cursor where
  rest : List Char
  index : Nat := 0
  line : Nat := 0
  column : Nat := 0

namespace Cursor

/-- The next character. -/
def peek (c : Cursor) : Option Char := c.rest.head?

def peekIs (c : Cursor) (p : Char → Bool) : Bool := c.peek.any p

/-- The place after the next character. A carriage return before a newline does not end the line. -/
def next (c : Cursor) : Cursor :=
  match c.rest with
  | [] => c
  | x :: rest =>
    if isBreak x && !(x = '\r' && rest.head? = some '\n') then ⟨rest, c.index + 1, c.line + 1, 0⟩
    else ⟨rest, c.index + 1, c.line, if x = byteOrderMark then c.column else c.column + 1⟩

def skip (c : Cursor) : Nat → Cursor
  | 0 => c
  | n + 1 => c.next.skip n

/-- The characters from here on that satisfy `p`, and the place after them. -/
def span (c : Cursor) (p : Char → Bool) : List Char × Cursor :=
  let run := c.rest.takeWhile p
  (run, c.skip run.length)

def skipWhile (c : Cursor) (p : Char → Bool) : Cursor := (c.span p).2

def skipSpaces (c : Cursor) : Cursor := c.skipWhile (· = ' ')

/-- The place after the rest of the line when a comment starts here. -/
def skipComment (c : Cursor) : Cursor :=
  if c.peek = some '#' then c.skipWhile (!isBreak ·) else c

/-- A line break as it counts in a scalar, and the place after it. -/
def lineBreak? (c : Cursor) : Option (Char × Cursor) :=
  match c.rest with
  | '\r' :: '\n' :: _ => some ('\n', c.skip 2)
  | x :: _ =>
    if x = '\u2028' ∨ x = '\u2029' then some (x, c.next)
    else if isBreak x then some ('\n', c.next)
    else none
  | [] => none

/-- The place after a line break when one is here. -/
def skipBreak (c : Cursor) : Cursor :=
  match c.lineBreak? with
  | some (_, after) => after
  | none => c

/-- Whether three characters of a kind stand here, alone. -/
def atMark (c : Cursor) (x : Char) : Bool :=
  [x, x, x].isPrefixOf c.rest && endsToken c.rest[3]?

/-- Whether a mark between documents stands here. -/
def atDocumentMark (c : Cursor) : Bool := c.atMark '-' || c.atMark '.'

end Cursor

end ResourceCompiler.Yaml
