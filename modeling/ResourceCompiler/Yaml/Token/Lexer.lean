import ResourceCompiler.Text.Word
import ResourceCompiler.Yaml.Scalar.Block
import ResourceCompiler.Yaml.Scalar.Quoted

/-!
# Finding tokens

A key may come without a mark of its own: only the colon behind it tells that it is one. So each place
where such a key may start is kept as a candidate, one for each level of brackets, and the token that
starts a key is put in front of it when its colon is found. A candidate is good for one line and 1024
characters, and one that stands where only a key may stand must become one.
-/

namespace ResourceCompiler.Yaml

/-- A place where a key may have started. -/
structure Candidate where
  /-- The number of tokens before it. -/
  position : Nat
  required : Bool
  start : Cursor

structure Lexer where
  cursor : Cursor
  /-- The tokens so far, the last one first. -/
  tokens : List Token := []
  /-- How many tokens there are so far. -/
  count : Nat := 0
  indent : Int := -1
  /-- The indentations of the enclosing block collections, the innermost first. -/
  outer : List Int := []
  /-- How many brackets are open. -/
  level : Nat := 0
  keyAllowed : Bool := true
  /-- The candidates by level. -/
  candidates : List (Nat × Candidate) := []

namespace Lexer

abbrev Result := Except ReadError Lexer

def inFlow (s : Lexer) : Bool := s.level ≠ 0

def push (s : Lexer) (t : Token) : Lexer :=
  { s with tokens := t :: s.tokens, count := s.count + 1 }

/-- Puts a token behind the first `position` ones. -/
def insertAt (s : Lexer) (position : Nat) (t : Token) : Lexer :=
  let later := s.count - position
  { s with tokens := s.tokens.take later ++ t :: s.tokens.drop later, count := s.count + 1 }

def moveTo (s : Lexer) (c : Cursor) : Lexer := { s with cursor := c }

/-- Ends the block collections that are indented by more than `column`. -/
def closeBlocks (s : Lexer) (column : Int) : List Int → Lexer
  | [] => s
  | indent :: outer =>
    if column < s.indent then
      closeBlocks { s.push .blockEnd with indent, outer } column outer
    else s

def unwind (s : Lexer) (column : Int) : Lexer :=
  if s.inFlow then s else s.closeBlocks column s.outer

/-- Whether a block collection starts at the column; brackets have no indentation. -/
def opens (s : Lexer) (column : Nat) : Bool := !s.inFlow && decide (s.indent < column)

def indentTo (s : Lexer) (column : Nat) : Lexer :=
  { s with indent := column, outer := s.indent :: s.outer }

/-- Starts a block collection here where the indentation asks for one. -/
def openBlock (s : Lexer) (t : Token) : Lexer :=
  if s.opens s.cursor.column then (s.indentTo s.cursor.column).push t else s

def candidate? (s : Lexer) : Option Candidate := s.candidates.lookup s.level

/-- Gives up the candidate of the current level. -/
def dropCandidate (s : Lexer) : Result :=
  if s.candidate?.any (·.required) then .error .malformed
  else .ok { s with candidates := s.candidates.filter (·.1 ≠ s.level) }

/-- Notes that a key may start here. -/
def addCandidate (s : Lexer) : Result := do
  if !s.keyAllowed then return s
  else
    let required := !s.inFlow && s.indent = s.cursor.column
    let s ← s.dropCandidate
    return { s with candidates := (s.level, ⟨s.count, required, s.cursor⟩) :: s.candidates }

/-- Whether a candidate is too far away to be a key. -/
def isStale (c : Cursor) (k : Candidate) : Bool :=
  k.start.line ≠ c.line || k.start.index + 1024 < c.index

def dropStale (s : Lexer) : Result :=
  if s.candidates.any fun (_, k) => isStale s.cursor k && k.required then .error .malformed
  else .ok { s with candidates := s.candidates.filter fun (_, k) => !isStale s.cursor k }

/-- Moves to the next token, over spaces, comments and line breaks. -/
def skipToToken (fuel : Nat) (s : Lexer) : Lexer :=
  match fuel with
  | 0 => s
  | n + 1 =>
    let c := s.cursor.skipSpaces.skipComment
    match c.lineBreak? with
    | some (_, after) => skipToToken n { s with cursor := after, keyAllowed := s.keyAllowed || !s.inFlow }
    | none => s.moveTo c

/-! ### Directives, anchors and tags -/

def isNameChar (c : Char) : Bool := c.isAlphanum || c = '-' || c = '_'

def scanName (c : Cursor) : Except ReadError (String × Cursor) :=
  match c.span isNameChar with
  | ([], _) => .error .malformed
  | (name, after) => .ok (String.ofList name, after)

def scanNumber (c : Cursor) : Except ReadError (Nat × Cursor) :=
  match c.span Char.isDigit with
  | ([], _) => .error .malformed
  | (digits, after) => .ok (Text.digitsToNat digits, after)

/-- A handle between exclamation marks; the last one may be missing for the shortest one. -/
def scanHandle (c : Cursor) : Except ReadError (String × Cursor) :=
  if c.peek ≠ some '!' then .error .malformed
  else if c.next.peek = some ' ' then .ok ("!", c.next)
  else
    let (name, after) := c.next.span isNameChar
    if after.peek = some '!' then .ok (String.ofList ('!' :: name ++ ['!']), after.next)
    else .error .malformed

def isTagChar (c : Char) : Bool :=
  c.isAlphanum || "-;/?:@&=+$,_.!~*'()[]".toList.contains c

/-- The bytes of codes after percent signs. -/
def scanCodes (fuel : Nat) (found : List UInt8) (c : Cursor) :
    Except ReadError (List UInt8 × Cursor) :=
  match fuel with
  | 0 => .error .malformed
  | n + 1 =>
    if c.peek = some '%' then
      match Json.readHex? 2 c.next.rest with
      | some (code, _) => scanCodes n (code.toUInt8 :: found) (c.skip 3)
      | none => .error .malformed
    else .ok (found.reverse, c)

/-- The name of a tag or of a part of it; `fuel` bounds the number of its characters. -/
def scanTagName (fuel : Nat) (found : List Char) (c : Cursor) :
    Except ReadError (List Char × Cursor) :=
  match fuel with
  | 0 => .error .malformed
  | n + 1 => do
    let (run, c) := c.span isTagChar
    let found := run.reverseAux found
    if c.peek = some '%' then
      let (bytes, c) ← scanCodes n [] c
      match String.fromUTF8? ⟨bytes.toArray⟩ with
      | some s => scanTagName n (s.toList.reverseAux found) c
      | none => .error .malformed
    else if found.isEmpty then .error .malformed
    else .ok (found.reverse, c)

def tagName (fuel : Nat) (c : Cursor) : Except ReadError (String × Cursor) := do
  let (name, after) ← scanTagName fuel [] c
  return (String.ofList name, after)

def scanTag (fuel : Nat) (c : Cursor) : Except ReadError (RawTag × Cursor) := do
  let (t, after) ← if c.next.peek = some '<' then do
      let (name, after) ← tagName fuel (c.skip 2)
      if after.peek = some '>' then pure ((⟨none, name⟩ : RawTag), after.next) else throw .malformed
    else if endsToken c.next.peek then pure (⟨none, "!"⟩, c.next)
    else do
      let word := c.next.rest.takeWhile fun x => !endsWord (some x)
      let (handle, after) ← if word.contains '!' then scanHandle c else pure ("!", c.next)
      let (name, after) ← tagName fuel after
      pure (⟨some handle, name⟩, after)
  if endsWord after.peek then return (t, after) else .error .malformed

def scanDirective (fuel : Nat) (c : Cursor) : Except ReadError (Directive × Cursor) := do
  let (name, c) ← scanName c.next
  if !endsWord c.peek then .error .malformed
  else
    let (directive, c) ← if name = "YAML" then do
        let (major, c) ← scanNumber c.skipSpaces
        if c.peek ≠ some '.' then throw .malformed
        let (minor, c) ← scanNumber c.next
        if endsWord c.peek then pure (Directive.version major minor, c) else throw .malformed
      else if name = "TAG" then do
        let (handle, c) ← scanHandle c.skipSpaces
        if c.peek ≠ some ' ' then throw .malformed
        let (expansion, c) ← tagName fuel c.skipSpaces
        if endsWord c.peek then pure (.handle handle expansion, c) else throw .malformed
      else pure (.other, c.skipWhile (!isBreak ·))
    let c := c.skipSpaces.skipComment
    if endsLine c.peek then return (directive, c.skipBreak) else .error .malformed

/-! ### Tokens -/

def takeDirective (fuel : Nat) (s : Lexer) : Result := do
  let s ← (s.unwind (-1)).dropCandidate
  let (directive, after) ← scanDirective fuel s.cursor
  return { s.push (.directive directive) with cursor := after, keyAllowed := false }

def takeDocumentMark (s : Lexer) (t : Token) : Result := do
  let s ← (s.unwind (-1)).dropCandidate
  return { s.push t with cursor := s.cursor.skip 3, keyAllowed := false }

def takeOpening (s : Lexer) (t : Token) : Result := do
  let s ← s.addCandidate
  return { s.push t with cursor := s.cursor.next, level := s.level + 1, keyAllowed := true }

def takeClosing (s : Lexer) (t : Token) : Result := do
  let s ← s.dropCandidate
  return { s.push t with cursor := s.cursor.next, level := s.level - 1, keyAllowed := false }

def takeComma (s : Lexer) : Result := do
  let s ← s.dropCandidate
  return { s.push .comma with cursor := s.cursor.next, keyAllowed := true }

def takeDash (s : Lexer) : Result := do
  if !s.inFlow && !s.keyAllowed then .error .malformed
  else
    let s ← (s.openBlock .sequenceStart).dropCandidate
    return { s.push .dash with cursor := s.cursor.next, keyAllowed := true }

def takeKey (s : Lexer) : Result := do
  if !s.inFlow && !s.keyAllowed then .error .malformed
  else
    let s ← (s.openBlock .mappingStart).dropCandidate
    return { s.push .key with cursor := s.cursor.next, keyAllowed := !s.inFlow }

/-- The lexer after the colon of a candidate: the key starts where the candidate stands. -/
def makeKey (s : Lexer) (k : Candidate) : Lexer :=
  let s := { s with candidates := s.candidates.filter (·.1 ≠ s.level), keyAllowed := false }
  let s := s.insertAt k.position .key
  if s.opens k.start.column then (s.indentTo k.start.column).insertAt k.position .mappingStart else s

def takeValue (s : Lexer) : Result := do
  let s ← match s.candidate? with
    | some k => pure (s.makeKey k)
    | none =>
      if !s.inFlow && !s.keyAllowed then throw .malformed
      else (({ s.openBlock .mappingStart with keyAllowed := !s.inFlow } : Lexer)).dropCandidate
  return { s.push .value with cursor := s.cursor.next }

def takeNamed (s : Lexer) (make : String → Token) : Result := do
  let s ← s.addCandidate
  let (name, after) ← scanName s.cursor.next
  if endsToken after.peek || after.peekIs ("?:,]\x7d%@\x60".toList.contains ·) then
    return { s.push (make name) with cursor := after, keyAllowed := false }
  else .error .malformed

def takeTag (fuel : Nat) (s : Lexer) : Result := do
  let s ← s.addCandidate
  let (t, after) ← scanTag fuel s.cursor
  return { s.push (.tag t) with cursor := after, keyAllowed := false }

def takeBlock (fuel : Nat) (s : Lexer) (fold : Bool) : Result := do
  let s ← s.dropCandidate
  let scanned ← scanBlock fuel fold s.indent s.cursor
  return { s.push (.scalar (String.ofList scanned.chars) false) with
    cursor := scanned.after, keyAllowed := true }

def takeQuoted (fuel : Nat) (s : Lexer) (double : Bool) : Result := do
  let s ← s.addCandidate
  let scanned ← scanQuoted fuel double s.cursor
  return { s.push (.scalar (String.ofList scanned.chars) false) with
    cursor := scanned.after, keyAllowed := false }

def takePlain (fuel : Nat) (s : Lexer) : Result := do
  let s ← s.addCandidate
  let scanned := scanPlain fuel s.inFlow s.indent s.cursor
  return { s.push (.scalar (String.ofList scanned.chars) true) with
    cursor := scanned.after, keyAllowed := scanned.broken }

/-- The characters that mean something at the start of a token. -/
def isIndicator (c : Char) : Bool :=
  "-?:,[]\x7b\x7d#&*!|>'\"%@\x60".toList.contains c

/-- Whether a plain scalar starts with the character. -/
def startsScalar (s : Lexer) (x : Char) (after : Option Char) : Bool :=
  !(endsToken (some x) || isIndicator x) ||
    (!endsToken after && (x = '-' || (!s.inFlow && (x = '?' || x = ':'))))

/-- Takes the token that starts with `x`; `fuel` bounds the number of its characters. -/
def take (fuel : Nat) (s : Lexer) (x : Char) : Result :=
  let after := s.cursor.next.peek
  let marks := s.inFlow || endsToken after
  if x = '%' && s.cursor.column = 0 then s.takeDirective fuel
  else if s.cursor.column = 0 && s.cursor.atMark '-' then s.takeDocumentMark .documentStart
  else if s.cursor.column = 0 && s.cursor.atMark '.' then s.takeDocumentMark .documentEnd
  else if x = '[' then s.takeOpening .openBracket
  else if x = '\x7b' then s.takeOpening .openBrace
  else if x = ']' then s.takeClosing .closeBracket
  else if x = '\x7d' then s.takeClosing .closeBrace
  else if x = ',' then s.takeComma
  else if x = '-' && endsToken after then s.takeDash
  else if x = '?' && marks then s.takeKey
  else if x = ':' && marks then s.takeValue
  else if x = '*' then s.takeNamed .alias
  else if x = '&' then s.takeNamed .anchor
  else if x = '!' then s.takeTag fuel
  else if x = '|' && !s.inFlow then s.takeBlock fuel false
  else if x = '>' && !s.inFlow then s.takeBlock fuel true
  else if x = '\'' then s.takeQuoted fuel false
  else if x = '"' then s.takeQuoted fuel true
  else if s.startsScalar x after then s.takePlain fuel
  else .error .malformed

/-- The lexer after the last token. -/
def finish (s : Lexer) : Result := (s.unwind (-1)).dropCandidate

/--
The tokens up to an error. A token that a key may still start with is not known yet when the error comes,
and so it is not among them.
-/
def failedWith (s : Lexer) (e : ReadError) : List Token :=
  let open? := s.candidates.filter fun (_, k) => !isStale s.cursor k
  let known := (open?.map (·.2.position)).foldl min s.count
  (.failed e :: s.tokens.drop (s.count - known)).reverse

/-- One step: over blanks to the next token and past it; nothing is left when the text ends. -/
def step (fuel : Nat) (s : Lexer) : Except ReadError (Lexer × Bool) := do
  let s ← (s.skipToToken fuel).dropStale
  let s := s.unwind s.cursor.column
  match s.cursor.peek with
  | none => return (← s.finish, false)
  | some x => return (← s.take fuel x, true)

/--
The tokens of the text, with the error at the end when one stops the lexer. `fuel` is more than the
number of characters that are left: each step but the last one takes at least one.
-/
def run (fuel : Nat) (s : Lexer) : List Token :=
  match fuel, s.step fuel with
  | _, .error e => s.failedWith e
  | n + 1, .ok (after, true) => run n after
  | _, .ok (after, _) => after.tokens.reverse

end Lexer

/-- The tokens of a text. A mark of the byte order may stand at its start. -/
def Token.ofChars (cs : List Char) : List Token :=
  if cs.all isAllowed then
    let start : Cursor := ⟨cs, 0, 0, 0⟩
    let start := if start.peek = some byteOrderMark then start.next else start
    Lexer.run (cs.length + 2) { cursor := start }
  else [.failed .malformed]

end ResourceCompiler.Yaml
