import ResourceCompiler.Yaml.Scalar.Plain
import ResourceCompiler.Yaml.Token

/-!
# Block scalars

A literal block keeps its line breaks, a folded one joins lines that start without a blank. The header
may give the indentation and say whether the line breaks at the end are dropped, kept or cut to one.
-/

namespace ResourceCompiler.Yaml

/-- What is done with the line breaks at the end of a block. -/
inductive Chomping where
  | strip | clip | keep

/-- The line break and the ones after it that stay at the end of a block. -/
def Chomping.apply (chomping : Chomping) (last others : List Char) : List Char :=
  match chomping with
  | .strip => []
  | .clip => last
  | .keep => last ++ others

structure BlockHeader where
  chomping : Chomping := .clip
  /-- By how much the block is indented, when the header says so. -/
  indentation? : Option Nat := none

def chomping? : Option Char → Option Chomping
  | some '+' => some .keep
  | some '-' => some .strip
  | _ => none

/-- A digit that gives an indentation; zero is none. -/
def indentation (c? : Option Char) : Except ReadError (Option Nat) :=
  match c? with
  | some c =>
    if c = '0' then .error .malformed
    else .ok (if c.isDigit then some (c.toNat - 48) else none)
  | none => .ok none

/-- The header after its first character, up to the next line. -/
def scanHeader (c : Cursor) : Except ReadError (BlockHeader × Cursor) := do
  let (header, c) ← match chomping? c.peek with
    | some chomping => do
      let indentation? ← indentation c.next.peek
      pure (({ chomping, indentation? } : BlockHeader),
        if indentation?.isSome then c.skip 2 else c.next)
    | none => do
      let indentation? ← indentation c.peek
      match indentation?, chomping? c.next.peek with
      | some _, some chomping => pure ({ chomping, indentation? }, c.skip 2)
      | some _, none => pure ({ indentation? }, c.next)
      | none, _ => pure ({}, c)
  if !endsWord c.peek then .error .malformed
  else
    let c := c.skipSpaces.skipComment
    if endsLine c.peek then return (header, c.skipBreak) else .error .malformed

/-- The line breaks before the first line, and the widest indentation of them and of that line. -/
def leadingBreaks (fuel : Nat) (widest : Nat) (found : List Char) (c : Cursor) :
    List Char × Nat × Cursor :=
  match fuel with
  | 0 => (found.reverse, widest, c)
  | n + 1 =>
    let c := c.skipSpaces
    let widest := max widest c.column
    match c.lineBreak? with
    | some (b, after) => leadingBreaks n widest (b :: found) after
    | none => (found.reverse, widest, c)

/-- The place after spaces, up to a column. -/
def skipIndent (indent : Int) (c : Cursor) : Cursor :=
  let spaces := (c.rest.takeWhile (· = ' ')).length
  c.skip (min spaces (indent - c.column).toNat)

/-- Line breaks of empty lines, and the place after the indentation that follows. -/
def blockBreaks (fuel : Nat) (indent : Int) (found : List Char) (c : Cursor) : List Char × Cursor :=
  let c := skipIndent indent c
  match fuel, c.lineBreak? with
  | n + 1, some (b, after) => blockBreaks n indent (b :: found) after
  | _, _ => (found.reverse, c)

/-- How a line break between two lines of a block is written. -/
def joinedBreak (fold : Bool) (last others : List Char) (plainBefore plainAfter : Bool) : List Char :=
  if fold && last = ['\n'] && plainBefore && plainAfter then
    if others.isEmpty then [' '] else []
  else last

def startsPlain (c : Cursor) : Bool := !c.peekIs fun x => x = ' ' || x = '\t'

/-- The lines of a block, after the characters in `done`, which is reversed. -/
def blockLines (fuel : Nat) (fold : Bool) (chomping : Chomping) (indent : Int) (done : List Char)
    (c : Cursor) : Scanned :=
  match fuel with
  | 0 => ⟨done.reverse, c, true⟩
  | n + 1 =>
    let plainBefore := startsPlain c
    let (line, c) := c.span (!isBreak ·)
    let done := line.reverseAux done
    let last := (c.lineBreak?.map (·.1)).toList
    let (others, c) := blockBreaks n indent [] c.skipBreak
    if c.column = indent && c.peek.isSome then
      let join := joinedBreak fold last others plainBefore (startsPlain c)
      blockLines n fold chomping indent (others.reverseAux (join.reverseAux done)) c
    else ⟨((chomping.apply last others).reverseAux done).reverse, c, true⟩

/--
A block scalar that starts at its mark, inside a collection of the given indentation; `fuel` bounds the
number of its lines.
-/
def scanBlock (fuel : Nat) (fold : Bool) (outer : Int) (c : Cursor) : Except ReadError Scanned := do
  let (header, c) ← scanHeader c.next
  let least := max 1 (outer + 1)
  let (breaks, indent, c) := match header.indentation? with
    | none =>
      let (breaks, widest, c) := leadingBreaks fuel 0 [] c
      (breaks, max least (widest : Int), c)
    | some n =>
      let indent := least + n - 1
      let (breaks, c) := blockBreaks fuel indent [] c
      (breaks, indent, c)
  if c.column = indent && c.peek.isSome then
    return blockLines fuel fold header.chomping indent breaks.reverse c
  else return ⟨header.chomping.apply [] breaks, c, true⟩

end ResourceCompiler.Yaml
