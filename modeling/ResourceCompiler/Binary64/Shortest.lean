import ResourceCompiler.Binary64

/-!
# The shortest decimal of a number

`shortest` looks for the fewest digits that read back as the number: for 1, 2, … 17 digits it tests
the two neighbours of the value on that decimal grid; the first grid with a hit wins, and of two hits
the nearer. `text` lays the digits out.
-/

namespace ResourceCompiler.Binary64

/-- `digits * 10 ^ exponent`. -/
structure Decimal where
  digits : Nat
  exponent : Int
deriving DecidableEq

/--
The magnitude `value / unit` and the ends of the interval of reals that round to it; the ends belong
to the interval when `closed`.
-/
structure Interval where
  low : Nat
  value : Nat
  high : Nat
  unit : Nat
  closed : Bool

namespace Interval

def ofParts (mantissa shift : Nat) : Interval where
  -- below a power of two the neighbour is half as far as above it
  low := (4 * mantissa - if mantissa = 1 <<< 52 ∧ shift ≠ 0 then 1 else 2) <<< shift
  value := (4 * mantissa) <<< shift
  high := (4 * mantissa + 2) <<< shift
  unit := 4 * scale
  closed := mantissa % 2 = 0

/-- The interval measured in units of `10 ^ e`. -/
def inUnitsOf (i : Interval) (e : Int) : Interval :=
  if e < 0 then
    let k := Nat.pow 10 e.natAbs
    { i with low := i.low * k, value := i.value * k, high := i.high * k }
  else { i with unit := i.unit * Nat.pow 10 e.natAbs }

def contains (i : Interval) (c : Nat) : Bool :=
  if i.closed then decide (i.low ≤ c * i.unit ∧ c * i.unit ≤ i.high)
  else decide (i.low < c * i.unit ∧ c * i.unit < i.high)

/-- The integer in the interval that is nearest to the value, looked for among its two neighbours. -/
def nearest? (i : Interval) : Option Nat :=
  let c := i.value / i.unit
  match i.contains c, i.contains (c + 1) with
  | true, true => some (roundRatio i.value i.unit)
  | true, false => some c
  | false, true => some (c + 1)
  | false, false => none

/-- How many digits the value has before the point; for values below one, minus the zeros after it. -/
def places (i : Interval) : Int :=
  digitCount (i.value * Nat.pow 10 400 / i.unit) - 400

end Interval

/-- The shortest decimal that reads back as `mantissa * 2 ^ shift / 2 ^ 1074`. -/
def shortest (mantissa shift : Nat) : Decimal :=
  let i := Interval.ofParts mantissa shift
  let places := i.places
  let hit := (List.range 17).findSome? fun (k : Nat) =>
    let e := places - (k + 1)
    (i.inUnitsOf e).nearest?.map fun digits => ⟨digits, e⟩
  hit.getD ⟨0, 0⟩

/-- Digits without zeros at the end. -/
def trimZeros (digits : List Char) : List Char :=
  (digits.reverse.dropWhile (· = '0')).reverse

/--
`digits` with the point after the first `point` of them: positional for `-4 < point ≤ 16`, always with
a point, else scientific with an exponent of two digits at least.
-/
def layOut (digits : List Char) (point : Int) : List Char :=
  if -4 < point ∧ point ≤ 16 then
    if point ≤ 0 then '0' :: '.' :: (List.replicate point.natAbs '0' ++ digits)
    else
      let n := point.natAbs
      let whole := digits.take n
      let rest := digits.drop n
      whole ++ List.replicate (n - whole.length) '0' ++ '.' :: (if rest.isEmpty then ['0'] else rest)
  else
    let e := point - 1
    let exponent := Nat.toDigits 10 e.natAbs
    let fraction := digits.drop 1
    digits.take 1 ++ (if fraction.isEmpty then [] else '.' :: fraction) ++
      'e' :: (if e < 0 then '-' else '+') ::
        (List.replicate (2 - exponent.length) '0' ++ exponent)

def chars : Binary64 → List Char
  | .nan => ['n', 'a', 'n']
  | .infinite negative => (if negative then ['-'] else []) ++ ['i', 'n', 'f']
  | .finite negative m p _ =>
    let body :=
      if m = 0 then ['0', '.', '0']
      else
        let d := shortest m p
        let digits := Nat.toDigits 10 d.digits
        layOut (trimZeros digits) (digits.length + d.exponent)
    if negative then '-' :: body else body

def text (x : Binary64) : String := String.ofList x.chars

end ResourceCompiler.Binary64
