import ResourceCompiler.Yaml.Cursor

/-!
# Plain scalars

Scalars without quotes. They may go on over lines: a single line break counts as a space, further ones
as themselves.
-/

namespace ResourceCompiler.Yaml

/-- The characters that end a plain scalar inside brackets. -/
def isFlowMark (c : Char) : Bool :=
  c = ',' || c = '[' || c = ']' || c = '\x7b' || c = '\x7d'

/-- Whether a colon before the character separates a key from its value. -/
def separates (inFlow : Bool) (after : Option Char) : Bool :=
  endsToken after || (inFlow && after.any isFlowMark)

/-- The characters up to the end of a word of a plain scalar. -/
def plainRun (inFlow : Bool) : List Char → List Char
  | [] => []
  | c :: rest =>
    if endsToken (some c) || (c = ':' && separates inFlow rest.head?) ||
        (inFlow && (isFlowMark c || c = '?')) then []
    else c :: plainRun inFlow rest

/-- Line breaks with spaces between them; nothing when they lead to a mark between documents. -/
def plainBreaks (fuel : Nat) (found : List Char) (c : Cursor) : Option (List Char) × Cursor :=
  match fuel with
  | 0 => (none, c)
  | n + 1 =>
    let c := c.skipSpaces
    match c.lineBreak? with
    | none => (some found.reverse, c)
    | some (b, after) => if after.atDocumentMark then (none, after) else plainBreaks n (b :: found) after

/-- The characters that a line break and those after it amount to. -/
def folded (first : Char) (others : List Char) : List Char :=
  if first ≠ '\n' then first :: others
  else if others.isEmpty then [' '] else others

/-- What stands between two words of a plain scalar. -/
structure PlainGap where
  chars : List Char
  /-- Whether the gap has a line break. -/
  broken : Bool
  after : Cursor

/-- `fuel` bounds the number of lines. -/
def plainGap (fuel : Nat) (c : Cursor) : PlainGap :=
  let (spaces, c) := c.span (· = ' ')
  match c.lineBreak? with
  | none => ⟨spaces, false, c⟩
  | some (b, after) =>
    if after.atDocumentMark then ⟨[], true, after⟩
    else
      match plainBreaks fuel [] after with
      | (some others, after) => ⟨folded b others, true, after⟩
      | (none, after) => ⟨[], true, after⟩

/-- A scalar that was read, and where it ends. -/
structure Scanned where
  chars : List Char
  after : Cursor
  /-- Whether a line break was passed behind the scalar. -/
  broken : Bool := false

/-- The words of a plain scalar, after those in `done`, which is reversed. -/
def plainWords (fuel : Nat) (inFlow : Bool) (indent : Int) (done gap : List Char) (broken : Bool)
    (c : Cursor) : Scanned :=
  let run := plainRun inFlow c.rest
  match fuel, run with
  | 0, _ | _, [] => ⟨done.reverse, c, broken⟩
  | n + 1, run =>
    if c.peek = some '#' then ⟨done.reverse, c, broken⟩
    else
      let done := run.reverseAux (gap.reverseAux done)
      let gap := plainGap n (c.skip run.length)
      if gap.chars.isEmpty || (!inFlow && gap.after.column < indent) then
        ⟨done.reverse, gap.after, gap.broken⟩
      else plainWords n inFlow indent done gap.chars gap.broken gap.after

/-- A plain scalar inside a collection of the given indentation; `fuel` bounds the number of words. -/
def scanPlain (fuel : Nat) (inFlow : Bool) (indent : Int) (c : Cursor) : Scanned :=
  plainWords fuel inFlow (indent + 1) [] [] false c

end ResourceCompiler.Yaml
