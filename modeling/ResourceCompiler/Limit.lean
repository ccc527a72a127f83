import ResourceCompiler.Value

/-!
# Nesting limits
-/

namespace ResourceCompiler

/-- How many levels deep a schema may nest: a number of any kind, truth counting as one. -/
inductive Limit where
  | levels (n : Int)
  | flag (b : Bool)
  | fraction (x : Binary64)
deriving DecidableEq

namespace Limit

def toScalar : Limit → Scalar
  | .levels n => .int n
  | .flag b => .bool b
  | .fraction x => .float x

/-- The limit that a value gives, when it is a number. -/
def ofValue? : Value → Option Limit
  | .int n => some (.levels n)
  | .bool b => some (.flag b)
  | .float x => some (.fraction x)
  | _ => none

def exceededBy (limit : Limit) (depth : Int) : Bool :=
  match limit with
  | .levels n => n < depth
  | .flag b => (if b then 1 else 0) < depth
  | .fraction x =>
    match x with
    | .nan => false
    | .infinite negative => negative
    | x => x.scaled?.any (· < depth * Binary64.scale)

end Limit

end ResourceCompiler
