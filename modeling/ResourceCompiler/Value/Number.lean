import ResourceCompiler.Text.Blank
import ResourceCompiler.Text.Digit
import ResourceCompiler.Value

/-!
# Numbers in text

Readers of integers and of double precision numbers. Both allow blanks around the number, a sign, the
digits of every script and single underscores between digits; an integer has at most 4300 digits.
-/

namespace ResourceCompiler

namespace Text

/--
A text with blanks and digits beyond ASCII replaced by their ASCII counterparts, or nothing when it
holds another character beyond ASCII. An ASCII text stays as it is.
-/
def asciiNumber? (cs : List Char) : Option (List Char) :=
  cs.mapM fun c =>
    if c.toNat < 127 then some c
    else if isBlank c then some ' '
    else (digitValue? c).map Nat.digitChar

/-- The sign in front of a number and what follows it. -/
def signed : List Char → Bool × List Char
  | '-' :: cs => (true, cs)
  | '+' :: cs => (false, cs)
  | cs => (false, cs)

/-- Digits with single underscores between them removed; nothing for any other text. -/
def groupedDigits? : List Char → Option (List Char)
  | [] => none
  | [c] => if c.isDigit then some [c] else none
  | c :: '_' :: cs => if c.isDigit then (groupedDigits? cs).map (c :: ·) else none
  | c :: cs => if c.isDigit then (groupedDigits? cs).map (c :: ·) else none

def digitsToNat (cs : List Char) : Nat :=
  cs.foldl (fun n c => 10 * n + (c.toNat - 48)) 0

def readInt? (s : String) : Option Int := do
  let (negative, body) := signed (trim isAsciiBlank (← asciiNumber? s.toList))
  let digits ← groupedDigits? body
  guard (digits.length ≤ maxDigits)
  let n : Int := digitsToNat digits
  return if negative then -n else n

/-- Removes underscores that stand between two digits; nothing when one stands elsewhere. -/
def dropUnderscores? (previous : Char) : List Char → Option (List Char)
  | [] => some []
  | '_' :: cs =>
    if previous.isDigit && cs.head?.any Char.isDigit then dropUnderscores? '_' cs else none
  | c :: cs => (dropUnderscores? c cs).map (c :: ·)

/-- The exponent after its letter. -/
def readExponent? (cs : List Char) : Option Int :=
  let (negative, digits) := signed cs
  if digits.isEmpty || !digits.all Char.isDigit then none
  else some (if negative then -digitsToNat digits else digitsToNat digits)

/-- An unsigned number: digits with an optional point and an optional exponent, or a name. -/
def readMagnitude? (negative : Bool) (cs : List Char) : Option Binary64 :=
  let name := String.ofList (cs.map Char.toLower)
  if name = "inf" ∨ name = "infinity" then some (.infinite negative)
  else if name = "nan" then some .nan
  else
    let whole := cs.takeWhile Char.isDigit
    let (fraction, rest) := match cs.dropWhile Char.isDigit with
      | '.' :: r => (r.takeWhile Char.isDigit, r.dropWhile Char.isDigit)
      | r => ([], r)
    if whole.isEmpty && fraction.isEmpty then none
    else
      let exponent? := match rest with
        | [] => some 0
        | e :: r => if e = 'e' ∨ e = 'E' then readExponent? r else none
      exponent?.map fun exponent =>
        .ofDecimal negative (digitsToNat (whole ++ fraction)) (exponent - fraction.length)

def readFloat? (s : String) : Option Binary64 := do
  let body := trim isAsciiBlank (← asciiNumber? s.toList)
  let (negative, magnitude) := signed (← dropUnderscores? ' ' body)
  readMagnitude? negative magnitude

end Text

namespace Value

/-- The integer of a value: of a number its integer part, of a text what it reads as. -/
def toInt : Value → Except Fault Int
  | .int n => .ok n
  | .bool b => .ok (if b then 1 else 0)
  | .float x =>
    match x.truncate? with
    | some n => .ok n
    | none => .error (if x.isNaN then .malformedNumber else .outOfRange)
  | .str s => (Text.readInt? s).elim (.error .malformedNumber) .ok
  | _ => .error .notNumber

/-- The double precision number of a value; an integer beyond the range has none. -/
def toFloat : Value → Except Fault Binary64
  | .float x => .ok x
  | .bool b => .ok (.ofInt (if b then 1 else 0))
  | .int n =>
    match Binary64.ofInt n with
    | .infinite _ => .error .outOfRange
    | x => .ok x
  | .str s => (Text.readFloat? s).elim (.error .malformedNumber) .ok
  | _ => .error .notNumber

end Value

end ResourceCompiler
