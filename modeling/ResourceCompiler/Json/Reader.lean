import ResourceCompiler.Text.Blank
import ResourceCompiler.Value.Number

/-!
# Reading JSON

A number with a point or an exponent is a double precision number, any other an integer. `NaN` and
`Infinity` are numbers too. A repeated key keeps its first place and takes the last value.

A text is a sequence of Unicode scalar values, here and everywhere else. An escape can also write one half of a
pair of surrogates without the other one; no text holds it, and reading puts the replacement character there.
-/

namespace ResourceCompiler.Json

inductive ReadError where
  | malformed
  /-- An integer of more digits than may be read. -/
  | tooManyDigits
deriving DecidableEq, Repr

def isSpace (c : Char) : Bool :=
  c = ' ' || c = '\t' || c = '\n' || c = '\r'

def skipSpace (cs : List Char) : List Char :=
  cs.dropWhile isSpace

def hexValue? (c : Char) : Option Nat :=
  if c.isDigit then some (c.toNat - 48)
  else if 'a' ≤ c ∧ c ≤ 'f' then some (c.toNat - 87)
  else if 'A' ≤ c ∧ c ≤ 'F' then some (c.toNat - 55)
  else none

/-- The number of the first `count` characters in base sixteen, and the rest. -/
def readHex? (count : Nat) (cs : List Char) : Option (Nat × List Char) :=
  if cs.length < count then none
  else
    let value? := (cs.take count).foldl (fun n? c => do return 16 * (← n?) + (← hexValue? c)) (some 0)
    value?.map (·, cs.drop count)

/-- The character of two UTF-16 units that form a pair. -/
def pairChar? (high low : Nat) : Option Char :=
  if 0xd800 ≤ high ∧ high < 0xdc00 ∧ 0xdc00 ≤ low ∧ low < 0xe000 then
    some (Char.ofNat (0x10000 + (high - 0xd800) * 0x400 + (low - 0xdc00)))
  else none

/-- The character of a unit, the replacement character for one of a broken pair. -/
def unitChar (n : Nat) : Char :=
  if 0xd800 ≤ n ∧ n < 0xe000 then Char.ofNat 0xfffd else Char.ofNat n

def escapeChar? (c : Char) : Option Char :=
  if c = '"' ∨ c = '\\' ∨ c = '/' then some c
  else if c = 'b' then some (Char.ofNat 8)
  else if c = 'f' then some (Char.ofNat 12)
  else if c = 'n' then some '\n'
  else if c = 'r' then some '\r'
  else if c = 't' then some '\t'
  else none

/-- The character after `\u`: one escape, or two that form a pair. -/
def readUnit? (cs : List Char) : Option (Char × List Char) := do
  let (n, rest) ← readHex? 4 cs
  match rest with
  | '\\' :: 'u' :: more =>
    match readHex? 4 more with
    | some (low, rest') =>
      match pairChar? n low with
      | some c => return (c, rest')
      | none => return (unitChar n, rest)
    | none => return (unitChar n, rest)
  | _ => return (unitChar n, rest)

/-- The text up to the closing quote, and what follows the quote. -/
def readText? (fuel : Nat) (cs : List Char) : Option (List Char × List Char) :=
  match fuel, cs with
  | 0, _ => none
  | _, [] => none
  | _, '"' :: rest => some ([], rest)
  | n + 1, '\\' :: 'u' :: rest => do
    let (c, rest) ← readUnit? rest
    let (text, rest) ← readText? n rest
    return (c :: text, rest)
  | n + 1, '\\' :: e :: rest => do
    let c ← escapeChar? e
    let (text, rest) ← readText? n rest
    return (c :: text, rest)
  | _, ['\\'] => none
  | n + 1, c :: rest =>
    if c.toNat < 32 then none
    else do
      let (text, rest) ← readText? n rest
      return (c :: text, rest)

/-- The digits of an integer without leading zeros. -/
def readWhole? (cs : List Char) : Option (List Char × List Char) :=
  match cs with
  | '0' :: rest => some (['0'], rest)
  | _ =>
    let digits := cs.takeWhile Char.isDigit
    if digits.isEmpty then none else some (digits, cs.drop digits.length)

/-- The digits after a point, when there are any. -/
def readFraction (cs : List Char) : List Char × List Char :=
  match cs with
  | '.' :: rest =>
    let digits := rest.takeWhile Char.isDigit
    if digits.isEmpty then ([], cs) else (digits, rest.drop digits.length)
  | _ => ([], cs)

/-- The exponent, when there is a whole one. -/
def readExponent? (cs : List Char) : Option (Int × List Char) :=
  match cs with
  | [] => none
  | e :: rest =>
    if e = 'e' ∨ e = 'E' then
      let (negative, rest) := Text.signed rest
      let digits := rest.takeWhile Char.isDigit
      if digits.isEmpty then none
      else
        let n : Int := Text.digitsToNat digits
        some (if negative then -n else n, rest.drop digits.length)
    else none

/-- A number after its sign. -/
def readMagnitude (negative : Bool) (cs : List Char) : Except ReadError (Value × List Char) :=
  match readWhole? cs with
  | none => .error .malformed
  | some (whole, rest) =>
    let (fraction, afterFraction) := readFraction rest
    match readExponent? afterFraction with
    | some (e, rest) =>
      let digits := Text.digitsToNat (whole ++ fraction)
      .ok (.float (.ofDecimal negative digits (e - fraction.length)), rest)
    | none =>
      if fraction.isEmpty then
        if Text.maxDigits < whole.length then .error .tooManyDigits
        else
          let n : Int := Text.digitsToNat whole
          .ok (.int (if negative then -n else n), rest)
      else
        let digits := Text.digitsToNat (whole ++ fraction)
        .ok (.float (.ofDecimal negative digits (-fraction.length)), afterFraction)

def readNumber : List Char → Except ReadError (Value × List Char)
  | '-' :: cs => readMagnitude true cs
  | cs => readMagnitude false cs

/-- The words that stand for a value. -/
def words : List (List Char × Value) :=
  [("null".toList, .null), ("true".toList, .bool true), ("false".toList, .bool false),
   ("NaN".toList, .float .nan), ("Infinity".toList, .float (.infinite false)),
   ("-Infinity".toList, .float (.infinite true))]

def readWord? (cs : List Char) : Option (Value × List Char) :=
  words.findSome? fun (word, v) =>
    if word.isPrefixOf cs then some (v, cs.drop word.length) else none

mutual

/-- A value that starts at the first character, and the rest. -/
def readValue (fuel : Nat) (cs : List Char) : Except ReadError (Value × List Char) :=
  match fuel, cs with
  -- every level takes a character, so that as much fuel as there are characters is enough
  | 0, _ => .error .malformed
  | n + 1, '"' :: rest =>
    match readText? (n + 1) rest with
    | some (text, rest) => .ok (.str (String.ofList text), rest)
    | none => .error .malformed
  | n + 1, '[' :: rest =>
    match skipSpace rest with
    | ']' :: rest => .ok (.list [], rest)
    | rest => do
      let (xs, rest) ← readElements n rest
      return (.list xs, rest)
  | n + 1, '\x7b' :: rest =>
    match skipSpace rest with
    | '\x7d' :: rest => .ok (.map [], rest)
    | rest => do
      let (es, rest) ← readEntries n rest
      return (.map (Entries.merge [] es), rest)
  | _ + 1, cs =>
    match readWord? cs with
    | some found => .ok found
    | none => readNumber cs

def readElements (fuel : Nat) (cs : List Char) : Except ReadError (List Value × List Char) :=
  match fuel with
  | 0 => .error .malformed
  | n + 1 => do
    let (x, rest) ← readValue n cs
    match skipSpace rest with
    | ',' :: rest =>
      let (xs, rest) ← readElements n (skipSpace rest)
      return (x :: xs, rest)
    | ']' :: rest => return ([x], rest)
    | _ => .error .malformed

def readEntries (fuel : Nat) (cs : List Char) : Except ReadError (Entries × List Char) :=
  match fuel, cs with
  | n + 1, '"' :: rest =>
    match readText? (n + 1) rest with
    | none => .error .malformed
    | some (name, rest) =>
      match skipSpace rest with
      | ':' :: rest => do
        let (v, rest) ← readValue n (skipSpace rest)
        match skipSpace rest with
        | ',' :: rest =>
          let (es, rest) ← readEntries n (skipSpace rest)
          return ((.str (String.ofList name), v) :: es, rest)
        | '\x7d' :: rest => return ([(.str (String.ofList name), v)], rest)
        | _ => .error .malformed
      | _ => .error .malformed
  | _, _ => .error .malformed

end

/-- The value of a text that holds one value and white space. -/
def readChars (cs : List Char) : Except ReadError Value := do
  let (v, rest) ← readValue (cs.length + 1) (skipSpace cs)
  if (skipSpace rest).isEmpty then return v else .error .malformed

def read (s : String) : Except ReadError Value :=
  readChars s.toList

end ResourceCompiler.Json
