import ResourceCompiler.Json.Reader
import ResourceCompiler.Yaml.Scalar.Plain
import ResourceCompiler.Yaml.Token

/-!
# Quoted scalars

Between single quotes a doubled quote is the only escape. Between double quotes a backslash starts an
escape, also of a line break. Other line breaks are folded as in plain scalars.
-/

namespace ResourceCompiler.Yaml

/-- The single characters that an escape letter stands for. -/
def escapes : List (Char × Char) :=
  [('0', '\x00'), ('a', '\x07'), ('b', '\x08'), ('t', '\t'), ('\t', '\t'), ('n', '\n'), ('v', '\x0b'),
   ('f', '\x0c'), ('r', '\r'), ('e', '\x1b'), (' ', ' '), ('"', '"'), ('\\', '\\'), ('/', '/'),
   ('N', '\u0085'), ('_', '\u00a0'), ('L', '\u2028'), ('P', '\u2029')]

/-- How many digits follow an escape letter that is followed by a code. -/
def codeLengths : List (Char × Nat) := [('x', 2), ('u', 4), ('U', 8)]

/-- The character of a code. -/
def codeChar (n : Nat) : Except ReadError Char :=
  if n < 0x110000 then .ok (Json.unitChar n)
  else .error (.fault (if n < 0x80000000 then .malformedNumber else .outOfRange))

/-- Line breaks with blanks around them, up to something else. A mark between documents is an error. -/
def quotedBreaks (fuel : Nat) (found : List Char) (c : Cursor) :
    Except ReadError (List Char × Cursor) :=
  match fuel with
  | 0 => .error .malformed
  | n + 1 =>
    if c.atDocumentMark then .error .malformed
    else
      let c := c.skipWhile fun x => x = ' ' || x = '\t'
      match c.lineBreak? with
      | some (b, after) => quotedBreaks n (b :: found) after
      | none => .ok (found.reverse, c)

/-- What blanks and line breaks inside quotes amount to. -/
def quotedGap (fuel : Nat) (c : Cursor) : Except ReadError (List Char × Cursor) := do
  let (blanks, c) := c.span fun x => x = ' ' || x = '\t'
  match c.lineBreak? with
  | some (b, after) =>
    let (others, after) ← quotedBreaks fuel [] after
    return (folded b others, after)
  | none => return (blanks, c)

/-- What an escape stands for; `c` is the place after the backslash. -/
def scanEscape (fuel : Nat) (c : Cursor) : Except ReadError (List Char × Cursor) := do
  match c.lineBreak?, c.peek with
  | some (_, after), _ => quotedBreaks fuel [] after
  | none, none => .error .malformed
  | none, some x =>
    match escapes.lookup x, codeLengths.lookup x with
    | some y, _ => return ([y], c.next)
    | none, some length =>
      match Json.readHex? length c.next.rest with
      | some (n, _) => return ([← codeChar n], c.next.skip length)
      | none => .error .malformed
    | none, none => .error .malformed

/-- The rest of a quoted scalar, after the characters in `done`, which is reversed. -/
def quotedRest (fuel : Nat) (double : Bool) (done : List Char) (c : Cursor) :
    Except ReadError Scanned :=
  match fuel, c.rest with
  | 0, _ | _, [] => .error .malformed
  | n + 1, x :: rest =>
    if x = (if double then '"' else '\'') then
      if !double && rest.head? = some '\'' then quotedRest n double ('\'' :: done) (c.skip 2)
      else .ok ⟨done.reverse, c.next, false⟩
    else if double && x = '\\' then do
      let (found, after) ← scanEscape n c.next
      quotedRest n double (found.reverseAux done) after
    else if endsToken (some x) then do
      let (found, after) ← quotedGap n c
      quotedRest n double (found.reverseAux done) after
    else quotedRest n double (x :: done) c.next

/-- A quoted scalar that starts at its opening quote; `fuel` bounds the number of its characters. -/
def scanQuoted (fuel : Nat) (double : Bool) (c : Cursor) : Except ReadError Scanned :=
  quotedRest fuel double [] c.next

end ResourceCompiler.Yaml
