import ResourceCompiler.Value.Number
import ResourceCompiler.Value.Text

/-!
# Writing JSON

Values as JSON text on one line or with one entry per line. Numbers that JSON lacks are written as
`NaN` and `Infinity`; dates and integers of too many digits cannot be written. Keys are texts, other
scalars are turned into them.
-/

namespace ResourceCompiler.Json

/-- How a text is laid out: in ASCII only or not, and with how many spaces a level is indented. -/
structure Layout where
  ascii : Bool
  indent : Option Nat

/-- Everything on one line, in ASCII. -/
def inline : Layout := ⟨true, none⟩

/-- One entry per line, two spaces for each level, all characters as they are. -/
def indented : Layout := ⟨false, some 2⟩

namespace Layout

/-- What stands before the first entry of a container at `level`, with the entries one level deeper. -/
def opening (layout : Layout) (level : Nat) : List Char :=
  match layout.indent with
  | none => []
  | some n => '\n' :: List.replicate (n * (level + 1)) ' '

def separator (layout : Layout) (level : Nat) : List Char :=
  match layout.indent with
  | none => [',', ' ']
  | some _ => ',' :: layout.opening level

def closing (layout : Layout) (level : Nat) : List Char :=
  match layout.indent with
  | none => []
  | some n => '\n' :: List.replicate (n * level) ' '

end Layout

def floatChars : Binary64 → List Char
  | .nan => ['N', 'a', 'N']
  | .infinite negative => (if negative then ['-'] else []) ++ "Infinity".toList
  | x => x.chars

def scalarChars (layout : Layout) : Scalar → Except Fault (List Char)
  | .null => .ok "null".toList
  | .bool b => .ok (if b then "true" else "false").toList
  | .int n => if Text.isShort n then .ok (Text.intChars n) else .error .malformedNumber
  | .float x => .ok (floatChars x)
  | .str s => .ok (Text.quoteChars layout.ascii s.toList)
  | .date _ => .error .notWritable

/-- A key between quotes, whatever scalar it is. -/
def keyChars (layout : Layout) : Scalar → Except Fault (List Char)
  | .str s => .ok (Text.quoteChars layout.ascii s.toList)
  | s => return Text.quoteChars layout.ascii (← scalarChars layout s)

mutual

def writeChars (layout : Layout) (level : Nat) : Value → Except Fault (List Char)
  | .scalar s => scalarChars layout s
  | .list [] => .ok ['[', ']']
  | .list (x :: xs) => do
    let body ← writeElements layout level (x :: xs)
    return '[' :: (layout.opening level ++ body ++ layout.closing level ++ [']'])
  | .map [] => .ok ['\x7b', '\x7d']
  | .map (e :: es) => do
    let body ← writeEntries layout level (e :: es)
    return '\x7b' :: (layout.opening level ++ body ++ layout.closing level ++ ['\x7d'])

def writeElements (layout : Layout) (level : Nat) : List Value → Except Fault (List Char)
  | [] => .ok []
  | x :: xs => do
    let first ← writeChars layout (level + 1) x
    let rest ← writeElements layout level xs
    return first ++ (if xs.isEmpty then [] else layout.separator level) ++ rest

def writeEntries (layout : Layout) (level : Nat) : List (Scalar × Value) → Except Fault (List Char)
  | [] => .ok []
  | (k, v) :: es => do
    let name ← keyChars layout k
    let first ← writeChars layout (level + 1) v
    let rest ← writeEntries layout level es
    return name ++ ':' :: ' ' :: (first ++ (if es.isEmpty then [] else layout.separator level) ++ rest)

end

def write (layout : Layout) (v : Value) : Except Fault String :=
  (writeChars layout 0 v).map String.ofList

end ResourceCompiler.Json
