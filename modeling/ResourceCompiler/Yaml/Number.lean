import ResourceCompiler.Json.Reader
import ResourceCompiler.Yaml.Token

/-!
# Numbers

Integers in bases two, eight, ten, sixteen and sixty, and double precision numbers in bases ten and
sixty. Underscores count for nothing.
-/

namespace ResourceCompiler.Yaml

/-- A scalar that is read from a text. -/
abbrev ScalarResult := Except ReadError Scalar

def failNumber {α : Type} : Except ReadError α := .error (.fault .malformedNumber)

/-- The digits of a number in a base up to sixteen. -/
def readBase (base : Nat) (cs : List Char) : Except ReadError Nat :=
  if cs.isEmpty then failNumber
  else
    let value? := cs.foldl (fun n? c => do
      let n ← n?
      let d ← Json.hexValue? c
      if d < base then some (base * n + d) else none) (some 0)
    value?.elim failNumber .ok

/-- The value of digits in base sixty. -/
def readSixties (parts : List (List Char)) : Except ReadError Int :=
  parts.foldlM (fun n part =>
    match Text.readInt? (String.ofList part) with
    | some d => .ok (60 * n + d)
    | none => failNumber) 0

/-- The value of digits in base sixty, the last of which comes first and may have a fraction. -/
def addSixties (unit : Nat) (sum : Binary64) : List (List Char) → Except ReadError Binary64
  | [] => .ok sum
  | part :: rest =>
    match Text.readFloat? (String.ofList part) with
    | some d => addSixties (60 * unit) (sum.add (d.scaleBy unit)) rest
    | none => failNumber

/-- A number as it is written, without underscores, and whether it has a minus sign. -/
def numberChars (text : String) : Except ReadError (Bool × List Char) :=
  match text.toList.filter (· ≠ '_') with
  | [] => .error (.fault .emptyNumber)
  | cs => .ok (Text.signed cs)

def magnitude (cs : List Char) : Except ReadError Int :=
  match cs with
  | [] => .error (.fault .emptyNumber)
  | ['0'] => .ok 0
  | '0' :: 'b' :: digits => do return (← readBase 2 digits : Nat)
  | '0' :: 'x' :: digits => do return (← readBase 16 digits : Nat)
  | '0' :: digits => do return (← readBase 8 digits : Nat)
  | _ =>
    if cs.contains ':' then readSixties (Text.splitAt (· = ':') cs)
    else (Text.readInt? (String.ofList cs)).elim failNumber .ok

def readInt (text : String) : ScalarResult := do
  let (negative, cs) ← numberChars text
  let n ← magnitude cs
  return .int (if negative then -n else n)

def readFloat (text : String) : ScalarResult := do
  let (negative, cs) ← numberChars text
  let cs := cs.map Char.toLower
  let x ← if cs = ".inf".toList then pure (Binary64.infinite false)
    else if cs = ".nan".toList then pure .nan
    else if cs.contains ':' then
      addSixties 1 (.zero false) (Text.splitAt (· = ':') cs).reverse
    else (Text.readFloat? (String.ofList cs)).elim failNumber .ok
  return .float (if negative then x.negate else x)

end ResourceCompiler.Yaml
