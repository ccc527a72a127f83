import ResourceCompiler.Binary64
import ResourceCompiler.Fault

/-!
# Data values

What a manifest, a configuration file or a schema is made of. Mappings keep the order of their
entries, and their keys are scalars; lookups compare keys by `Scalar.same`, under which the integer
one, the number `1.0` and truth are one key.
-/

namespace ResourceCompiler

/-- A day, or an instant with microseconds and, when known, the offset of its clock in minutes. -/
inductive Date where
  | day (year month day : Nat)
  | instant (year month day hour minute second microsecond : Nat) (offset : Option Int)
deriving DecidableEq

inductive Scalar where
  | null
  | bool (b : Bool)
  | int (n : Int)
  | float (x : Binary64)
  | str (s : String)
  | date (d : Date)
deriving DecidableEq, Inhabited

inductive Value where
  | scalar (s : Scalar)
  | list (elements : List Value)
  | map (entries : List (Scalar × Value))
deriving Inhabited

/-- The entries of a mapping, in order. -/
abbrev Entries := List (Scalar × Value)

namespace Scalar

/-- The number of a scalar that counts as an integer: truth is one and falsehood zero. -/
def int? : Scalar → Option Int
  | .int n => some n
  | .bool b => some (if b then 1 else 0)
  | _ => none

/-- Whether two scalars are the same key. -/
def same : Scalar → Scalar → Bool
  | .float x, .float y => x.equals y
  | .float x, s => s.int?.any x.equalsInt
  | s, .float x => s.int?.any x.equalsInt
  | .null, .null => true
  | .str s, .str t => s = t
  | .date d, .date e => d = e
  | s, t =>
    match s.int?, t.int? with
    | some m, some n => m = n
    | _, _ => false

/-- Whether a condition counts the scalar as true. -/
def truthy : Scalar → Bool
  | .null => false
  | .bool b => b
  | .int n => n ≠ 0
  | .float x => !x.isZero
  | .str s => s ≠ ""
  | .date _ => true

end Scalar

namespace Value

@[match_pattern] abbrev null : Value := .scalar .null
@[match_pattern] abbrev bool (b : Bool) : Value := .scalar (.bool b)
@[match_pattern] abbrev int (n : Int) : Value := .scalar (.int n)
@[match_pattern] abbrev float (x : Binary64) : Value := .scalar (.float x)
@[match_pattern] abbrev str (s : String) : Value := .scalar (.str s)
@[match_pattern] abbrev date (d : Date) : Value := .scalar (.date d)

/-- Whether a condition counts the value as true: empty texts, lists and mappings are false. -/
def truthy : Value → Bool
  | .scalar s => s.truthy
  | .list xs => !xs.isEmpty
  | .map es => !es.isEmpty

def isNull : Value → Bool
  | .null => true
  | _ => false

def isMap : Value → Bool
  | .map _ => true
  | _ => false

/-- Whether the value is truth itself and not another value that counts as true. -/
def isTrue : Value → Bool
  | .bool b => b
  | _ => false

/-- The first of two values that counts as true, else the second. -/
def or (v w : Value) : Value :=
  if v.truthy then v else w

/-- A value as a key. -/
def key : Value → Except Fault Scalar
  | .scalar s => .ok s
  | _ => .error .unhashable

/-- The name of the value's type in messages. -/
def typeName : Value → String
  | .null => "NoneType"
  | .bool _ => "bool"
  | .int _ => "int"
  | .float _ => "float"
  | .str _ => "str"
  | .date (.day ..) => "date"
  | .date (.instant ..) => "datetime"
  | .list _ => "list"
  | .map _ => "dict"

/-- The elements of a value: of a text its characters, of a mapping its keys. -/
def elements : Value → Except Fault (List Value)
  | .list xs => .ok xs
  | .map es => .ok (es.map fun (k, _) => .scalar k)
  | .str s => .ok (s.toList.map fun c => .str (String.ofList [c]))
  | _ => .error .notIterable

/-- A scalar that equals the value; lists and mappings equal no scalar. -/
def equalsScalar (v : Value) (s : Scalar) : Bool :=
  match v with
  | .scalar t => s.same t
  | _ => false

end Value

namespace Entries

/-- The value under a key. -/
def find? (entries : Entries) (key : Scalar) : Option Value :=
  match entries with
  | [] => none
  | (k, v) :: rest => if k.same key then some v else find? rest key

/-- The value under a name, null when there is none. -/
def get (entries : Entries) (name : String) : Value :=
  (entries.find? (.str name)).getD .null

def has (entries : Entries) (name : String) : Bool :=
  (entries.find? (.str name)).isSome

/-- Sets the value under a key; a key that is there keeps its place and its spelling. -/
def insert (entries : Entries) (key : Scalar) (value : Value) : Entries :=
  match entries with
  | [] => [(key, value)]
  | (k, v) :: rest => if k.same key then (k, value) :: rest else (k, v) :: insert rest key value

/-- All of `changes` set in order. -/
def merge (entries changes : Entries) : Entries :=
  changes.foldl (fun es (k, v) => insert es k v) entries

end Entries

namespace Value

/-- The entries of a mapping. -/
def entries : Value → Except Fault Entries
  | .map es => .ok es
  | _ => .error .notMapping

/-- The entries of a value where one that counts as false stands for no entries. -/
def entriesOrNone (v : Value) : Except Fault Entries :=
  if v.truthy then v.entries else .ok []

end Value

end ResourceCompiler
