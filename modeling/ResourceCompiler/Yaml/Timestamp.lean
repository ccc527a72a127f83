import ResourceCompiler.Value.Number

/-!
# Dates and times

A day, which may be followed by a time and the offset of its clock from the zero meridian.
-/

namespace ResourceCompiler.Yaml

/-- The parts of a timestamp as they are written. -/
structure Timestamp where
  year : List Char
  month : List Char
  day : List Char
  time? : Option (List Char × List Char × List Char) := none
  fraction : List Char := []
  /-- The sign of the clock's offset with its hours and minutes; none of these for the zero meridian. -/
  zone? : Option (Option (Bool × List Char × List Char)) := none

namespace Timestamp

/-- Between `least` and `most` digits, as many as there are, and the rest. -/
def digits? (least most : Nat) (cs : List Char) : Option (List Char × List Char) :=
  let run := (cs.take most).takeWhile Char.isDigit
  if run.length < least then none else some (run, cs.drop run.length)

def expect? (c : Char) : List Char → Option (List Char)
  | x :: cs => if x = c then some cs else none
  | [] => none

def dropBlanks (cs : List Char) : List Char := cs.dropWhile fun c => c = ' ' || c = '\t'

/-- The rest after what separates a day from a time. -/
def afterSeparator? : List Char → Option (List Char)
  | c :: cs =>
    if c = 'T' || c = 't' then some cs
    else if c = ' ' || c = '\t' then some (dropBlanks cs)
    else none
  | [] => none

def readFraction : List Char → List Char × List Char
  | '.' :: cs => (cs.takeWhile Char.isDigit, cs.dropWhile Char.isDigit)
  | cs => ([], cs)

/-- The zone at the end of a timestamp, when there is one. -/
def readZone? (cs : List Char) : Option (Option (Option (Bool × List Char × List Char))) :=
  if cs.isEmpty then some none
  else
    match dropBlanks cs with
    | ['Z'] => some (some none)
    | sign :: rest =>
      if sign = '+' || sign = '-' then do
        let (hours, rest) ← digits? 1 2 rest
        match rest with
        | [] => return some (some (sign = '-', hours, []))
        | ':' :: rest =>
          let (minutes, rest) ← digits? 2 2 rest
          if rest.isEmpty then return some (some (sign = '-', hours, minutes)) else none
        | _ => none
      else none
    | [] => none

def read? (cs : List Char) : Option Timestamp := do
  let (year, cs) ← digits? 4 4 cs
  let (month, cs) ← digits? 1 2 (← expect? '-' cs)
  let (day, cs) ← digits? 1 2 (← expect? '-' cs)
  if cs.isEmpty then return { year, month, day }
  else
    let (hour, cs) ← digits? 1 2 (← afterSeparator? cs)
    let (minute, cs) ← digits? 2 2 (← expect? ':' cs)
    let (second, cs) ← digits? 2 2 (← expect? ':' cs)
    let (fraction, cs) := readFraction cs
    let zone? ← readZone? cs
    return { year, month, day, time? := some (hour, minute, second), fraction, zone? }

/-- Whether a plain scalar is a timestamp: a day alone has two digits for month and day. -/
def isPlain (cs : List Char) : Bool :=
  match read? cs with
  | some t => t.time?.isSome || (t.month.length = 2 && t.day.length = 2)
  | none => false

def isLeap (year : Nat) : Bool :=
  (year % 4 = 0 && year % 100 ≠ 0) || year % 400 = 0

def daysIn (year month : Nat) : Nat :=
  if month = 2 then (if isLeap year then 29 else 28)
  else if [4, 6, 9, 11].contains month then 30 else 31

def isDay (year month day : Nat) : Bool :=
  1 ≤ year && 1 ≤ month && month ≤ 12 && 1 ≤ day && day ≤ daysIn year month

/-- Six digits of a fraction. -/
def microseconds (fraction : List Char) : Nat :=
  let digits := fraction.take 6
  Text.digitsToNat (digits ++ List.replicate (6 - digits.length) '0')

/-- The offset of a clock in minutes. -/
def offset : Option (Bool × List Char × List Char) → Int
  | none => 0
  | some (negative, hours, minutes) =>
    let n : Int := 60 * Text.digitsToNat hours + Text.digitsToNat minutes
    if negative then -n else n

/-- The date of a timestamp that a calendar and a clock have; an offset is less than a day. -/
def date? (t : Timestamp) : Option Date :=
  let year := Text.digitsToNat t.year
  let month := Text.digitsToNat t.month
  let day := Text.digitsToNat t.day
  let offset? := t.zone?.map offset
  if !isDay year month day || offset?.any (1440 ≤ ·.natAbs) then none
  else
    match t.time? with
    | none => some (.day year month day)
    | some (h, m, s) =>
      let hour := Text.digitsToNat h
      let minute := Text.digitsToNat m
      let second := Text.digitsToNat s
      if hour < 24 && minute < 60 && second < 60 then
        some (.instant year month day hour minute second (microseconds t.fraction) offset?)
      else none

end Timestamp

end ResourceCompiler.Yaml
