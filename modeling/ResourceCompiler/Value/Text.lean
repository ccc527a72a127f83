import ResourceCompiler.Binary64.Shortest
import ResourceCompiler.Fault
import ResourceCompiler.Text.Blank
import ResourceCompiler.Text.Digit
import ResourceCompiler.Text.Printable
import ResourceCompiler.Text.Quoted
import ResourceCompiler.Value

/-!
# The text of values

`Value.text` is what a value reads as inside a sentence or a name, `Value.quoted` the same with texts
between quotes, as they stand inside lists and mappings. An integer of too many digits has no text, and
neither has what contains one: `Value.toText` gives the text of a value that has one, and that is how
tokens, defaults and constants are written. The names of properties, kinds and versions, and the options
that an error names, are taken to have texts.
-/

namespace ResourceCompiler

namespace Text

/-- The decimal digits of a number, after a sign when it is negative. -/
def intChars (n : Int) : List Char :=
  if n < 0 then '-' :: Nat.toDigits 10 n.natAbs else Nat.toDigits 10 n.natAbs

def ofInt (n : Int) : String := String.ofList (intChars n)

/-- Whether an integer has few enough digits to be written. -/
def isShort (n : Int) : Bool := (Nat.toDigits 10 n.natAbs).length ≤ maxDigits

/-- The text of an integer that is short enough. -/
def writeInt (n : Int) : Except Fault String :=
  if isShort n then .ok (ofInt n) else .error .malformedNumber

/-- A number of at least `width` digits. -/
def padded (width n : Nat) : String :=
  let digits := Nat.toDigits 10 n
  String.ofList (List.replicate (width - digits.length) '0' ++ digits)

/-- A character between single quotes: controls and what cannot be printed are escaped. -/
def apostropheChar (quote c : Char) : List Char :=
  let n := c.toNat
  if c = quote ∨ c = '\\' then ['\\', c]
  else if c = '\n' then ['\\', 'n']
  else if c = '\r' then ['\\', 'r']
  else if c = '\t' then ['\\', 't']
  else if isPrintable c then [c]
  else if n < 0x100 then '\\' :: 'x' :: hexDigits 2 n
  else if n < 0x10000 then '\\' :: 'u' :: hexDigits 4 n
  else '\\' :: 'U' :: hexDigits 8 n

/-- A text between single quotes, or double ones when it has single and no double quotes. -/
def apostrophes (s : String) : String :=
  let cs := s.toList
  let quote := if cs.contains '\'' && !cs.contains '"' then '"' else '\''
  String.ofList (quote :: (cs.flatMap (apostropheChar quote) ++ [quote]))

end Text

namespace Date

open Text

/-- An offset as sign, hours and minutes. -/
def offsetText (minutes : Int) : String :=
  (if minutes < 0 then "-" else "+") ++ padded 2 (minutes.natAbs / 60) ++ ":" ++
    padded 2 (minutes.natAbs % 60)

/-- Day and time with `separator` between them; microseconds only when there are any. -/
def text (separator : String) : Date → String
  | .day y m d => padded 4 y ++ "-" ++ padded 2 m ++ "-" ++ padded 2 d
  | .instant y m d h mi s us offset =>
    padded 4 y ++ "-" ++ padded 2 m ++ "-" ++ padded 2 d ++ separator ++
      padded 2 h ++ ":" ++ padded 2 mi ++ ":" ++ padded 2 s ++
      (if us = 0 then "" else "." ++ padded 6 us) ++
      (offset.map offsetText).getD ""

/-- The time zone of an offset, as days and seconds when it is west. -/
def zoneText (minutes : Int) : String :=
  if minutes = 0 then "datetime.timezone.utc"
  else if minutes < 0 then
    "datetime.timezone(datetime.timedelta(days=-1, seconds=" ++ ofInt (86400 + 60 * minutes) ++ "))"
  else "datetime.timezone(datetime.timedelta(seconds=" ++ ofInt (60 * minutes) ++ "))"

def quoted : Date → String
  | .day y m d => "datetime.date(" ++ join ", " ([y, m, d].map fun (n : Nat) => ofInt n) ++ ")"
  | .instant y m d h mi s us offset =>
    let time := if us ≠ 0 then [s, us] else if s ≠ 0 then [s] else []
    let parts := ([y, m, d, h, mi] ++ time).map fun (n : Nat) => ofInt n
    let zone := match offset with
      | some minutes => ["tzinfo=" ++ zoneText minutes]
      | none => []
    "datetime.datetime(" ++ join ", " (parts ++ zone) ++ ")"

end Date

namespace Scalar

def quoted : Scalar → String
  | .null => "None"
  | .bool b => if b then "True" else "False"
  | .int n => Text.ofInt n
  | .float x => x.text
  | .str s => Text.apostrophes s
  | .date d => d.quoted

def text : Scalar → String
  | .str s => s
  | .date d => d.text " "
  | s => s.quoted

/-- Whether the scalar can be written. -/
def hasText : Scalar → Bool
  | .int n => Text.isShort n
  | _ => true

/-- The text of a scalar that can be written. -/
def toText (s : Scalar) : Except Fault String :=
  if s.hasText then .ok s.text else .error .malformedNumber

end Scalar

namespace Value

mutual

def quoted : Value → String
  | .scalar s => s.quoted
  | .list xs => "[" ++ Text.join ", " (quotedList xs) ++ "]"
  | .map es => "\x7b" ++ Text.join ", " (quotedEntries es) ++ "\x7d"

def quotedList : List Value → List String
  | [] => []
  | x :: xs => quoted x :: quotedList xs

def quotedEntries : List (Scalar × Value) → List String
  | [] => []
  | (k, v) :: es => (k.quoted ++ ": " ++ quoted v) :: quotedEntries es

end

def text : Value → String
  | .scalar s => s.text
  | v => v.quoted

mutual

/-- Whether all scalars of the value can be written, those that are keys as well. -/
def hasText : Value → Bool
  | .scalar s => s.hasText
  | .list xs => hasTexts xs
  | .map es => entriesHaveText es

def hasTexts : List Value → Bool
  | [] => true
  | x :: xs => hasText x && hasTexts xs

def entriesHaveText : List (Scalar × Value) → Bool
  | [] => true
  | (k, v) :: es => k.hasText && hasText v && entriesHaveText es

end

/-- The text of a value that can be written. -/
def toText (v : Value) : Except Fault String :=
  if v.hasText then .ok v.text else .error .malformedNumber

end Value

end ResourceCompiler
