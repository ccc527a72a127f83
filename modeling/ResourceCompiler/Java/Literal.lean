import ResourceCompiler.Descriptor
import ResourceCompiler.Value.Number
import ResourceCompiler.Value.Text

/-!
# Literals

Scalar values and defaults as Java expressions.
-/

namespace ResourceCompiler.Java

def boolText (b : Bool) : String := if b then "true" else "false"

/-- A value as a literal of a scalar type: `1` for a short integer is `1L` for a long one. -/
def literal (v : Value) (primitive : Primitive) : Except Fault String :=
  match primitive with
  | .string => v.toText.map Text.quote
  | .boolean => .ok (boolText v.truthy)
  | .int32 => do Text.writeInt (← v.toInt)
  | .int64 | .bigInteger => do return (← Text.writeInt (← v.toInt)) ++ "L"
  | .float => v.toFloat.map fun x => x.text ++ "F"
  | .double => v.toFloat.map fun x => x.text ++ "D"

/-- A bound as an integer when it has no fraction. -/
def number (v : Value) : Except Fault String := do
  let x ← v.toFloat
  if x.isWhole then Text.writeInt (← v.toInt) else return x.text

/-- Whether a default is taken for a constant of the value: it equals the value or has the same text. -/
def isTakenFor (v : Value) (value : Scalar) : Except Fault Bool := do
  if v.equalsScalar value then return true else return (← value.toText) = (← v.toText)

/-- The first constant that the default is taken for. -/
def enumDefault (e : EnumType) (v : Value) : Except Fault (Option String) := do
  let entry? ← e.entries.findM? fun entry => isTakenFor v entry.value
  return entry?.map fun entry => e.name ++ "." ++ entry.identifier

/-- The expression of a default for a scalar type. -/
def scalarDefault (t : PrimitiveType) (v : Value) : Except Fault (Option String) :=
  match t.primitive, v with
  | .bigInteger, v => do return some ("new " ++ t.name ++ "(\"" ++ (← Text.writeInt (← v.toInt)) ++ "\")")
  | .boolean, .bool b => .ok (some (boolText b))
  | .boolean, _ => .ok none
  | p, v => (literal v p).map some

/-- The expression that assigns a default to a field, when the default can be expressed for its type. -/
def defaultInitializer (t : Descriptor) (v : Value) : Except Fault (Option String) :=
  if v.isNull then .ok none
  else
    match t with
    | .enum e => enumDefault e v
    | .primitive p =>
      match scalarDefault p v with
      | .error .malformedNumber | .error .notNumber => .ok none
      | result => result
    | _ => .ok none

end ResourceCompiler.Java
