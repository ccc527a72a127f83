/-!
# Double precision numbers

A finite number is `± mantissa * 2 ^ shift / 2 ^ 1074`, so that two of them, or one and an integer,
compare as integers. `ofRatio` rounds a fraction to the nearest such number, a tie to the even
mantissa.
-/

namespace ResourceCompiler

/-- The mantissas and shifts of finite numbers: 53 bits, all of them used unless the shift is least. -/
def Fits (mantissa shift : Nat) : Prop :=
  mantissa < 1 <<< 53 ∧ shift ≤ 2045 ∧ (1 <<< 52 ≤ mantissa ∨ shift = 0)

instance (mantissa shift : Nat) : Decidable (Fits mantissa shift) :=
  inferInstanceAs (Decidable (_ ∧ _ ∧ (_ ∨ _)))

inductive Binary64 where
  | nan
  | infinite (negative : Bool)
  | finite (negative : Bool) (mantissa shift : Nat) (fits : Fits mantissa shift)
deriving DecidableEq

/-- The nearest integer to `num / den`; a tie goes to the even neighbour. -/
def roundRatio (num den : Nat) : Nat :=
  let q := num / den
  let r := num % den
  if 2 * r < den then q
  else if den < 2 * r then q + 1
  else if q % 2 = 0 then q else q + 1

namespace Binary64

/-- The power of two in the denominator of every finite number. -/
def scale : Nat := 1 <<< 1074

def zero (negative : Bool) : Binary64 :=
  .finite negative 0 0 (by decide)

instance : Inhabited Binary64 := ⟨zero false⟩

/-- `± mantissa * 2 ^ shift / 2 ^ 1074`, or infinity where that has no place among finite numbers. -/
def ofParts (negative : Bool) (mantissa shift : Nat) : Binary64 :=
  if h : Fits mantissa shift then .finite negative mantissa shift h else .infinite negative

/-- The number nearest to `± num / den`. -/
def ofRatio (negative : Bool) (num den : Nat) : Binary64 :=
  let n := num * scale
  let shift := Nat.log2 (n / den) + 1 - 53
  let m := roundRatio n (den <<< shift)
  if m = 1 <<< 53 then ofParts negative (1 <<< 52) (shift + 1) else ofParts negative m shift

def ofInt (n : Int) : Binary64 :=
  ofRatio (n < 0) n.natAbs 1

/-- The number of decimal digits of `n`, one for zero. -/
def digitCount (n : Nat) : Nat :=
  (Nat.toDigits 10 n).length

/-- The number nearest to `± digits * 10 ^ exponent`. -/
def ofDecimal (negative : Bool) (digits : Nat) (exponent : Int) : Binary64 :=
  if digits = 0 then zero negative
  else
    let places := digitCount digits + exponent
    -- numbers beyond these bounds are infinite or zero anyway; the bounds keep the powers of ten small
    if 310 < places then .infinite negative
    else if places < -330 then zero negative
    else if exponent < 0 then ofRatio negative digits (Nat.pow 10 exponent.natAbs)
    else ofRatio negative (digits * Nat.pow 10 exponent.natAbs) 1

/-- The value times `2 ^ 1074`; only finite numbers have one. -/
def scaled? : Binary64 → Option Int
  | .finite negative m p _ => some (if negative then -((m <<< p : Nat) : Int) else (m <<< p : Nat))
  | _ => none

/-- The integer part, toward zero. -/
def truncate? (x : Binary64) : Option Int :=
  x.scaled?.map (Int.tdiv · scale)

def isWhole (x : Binary64) : Bool :=
  match x.scaled? with
  | some n => n % (scale : Int) = 0
  | none => false

def isNaN : Binary64 → Bool
  | .nan => true
  | _ => false

def isZero : Binary64 → Bool
  | .finite _ m _ _ => m = 0
  | _ => false

/-- Equality of numbers: not-a-number equals nothing and both zeros are equal. -/
def equals : Binary64 → Binary64 → Bool
  | .infinite a, .infinite b => a = b
  | x, y =>
    match x.scaled?, y.scaled? with
    | some a, some b => a = b
    | _, _ => false

def equalsInt (x : Binary64) (n : Int) : Bool :=
  x.scaled? = some (n * scale)

/-- Strict order of numbers; not-a-number is below nothing and above nothing. -/
def less : Binary64 → Binary64 → Bool
  | .nan, _ => false
  | _, .nan => false
  | .infinite a, .infinite b => a && !b
  | .infinite a, .finite .. => a
  | .finite .., .infinite b => !b
  | x, y =>
    match x.scaled?, y.scaled? with
    | some a, some b => a < b
    | _, _ => false

def negate : Binary64 → Binary64
  | .nan => .nan
  | .infinite s => .infinite !s
  | .finite s m p h => .finite (!s) m p h

/-- The exact sum of finite numbers, rounded. -/
def add (x y : Binary64) : Binary64 :=
  match x, y with
  | .nan, _ => .nan
  | _, .nan => .nan
  | .infinite a, .infinite b => if a = b then .infinite a else .nan
  | .infinite a, _ => .infinite a
  | _, .infinite b => .infinite b
  | .finite a m p _, .finite b n q _ =>
    let total : Int := (if a then -1 else 1) * (m <<< p : Nat) + (if b then -1 else 1) * (n <<< q : Nat)
    -- a sum of zero is positive unless both are negative zeros
    if total = 0 then zero (a && b) else ofRatio (total < 0) total.natAbs scale

/-- The product with a natural number, rounded. -/
def scaleBy (x : Binary64) (k : Nat) : Binary64 :=
  match x with
  | .nan => .nan
  | .infinite a => if k = 0 then .nan else .infinite a
  | .finite a m p _ => ofRatio a ((m <<< p) * k) scale

end Binary64

end ResourceCompiler
