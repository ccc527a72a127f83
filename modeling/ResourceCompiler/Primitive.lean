import ResourceCompiler.Error
import ResourceCompiler.Value.Number

/-!
# Scalar types and their values

`classify` picks the scalar type of a kind and a format, `parseEnumValue` reads a raw token as a value
of a scalar type.
-/

namespace ResourceCompiler

namespace Primitive

def ofIntegerFormat? : Scalar → Option Primitive
  | .null => some .bigInteger
  | .str "int32" => some .int32
  | .str "int64" => some .int64
  | _ => none

def ofNumberFormat? : Scalar → Option Primitive
  | .null => some .double
  | .str "double" => some .double
  | .str "float" => some .float
  | _ => none

end Primitive

/-- The scalar type of a kind with a format. -/
def classify (kind : Kind) (format : Value) (path : String) : Except Failure Primitive :=
  match kind with
  -- texts have formats of any name; those of integers and numbers must be known
  | .basic .string => .ok .string
  | .basic .boolean => .ok .boolean
  | .basic .integer => do
    let f ← format.key
    match Primitive.ofIntegerFormat? f with
    | some p => return p
    | none => failShape (.unknownFormat f kind) (.str path)
  | .basic .number => do
    let f ← format.key
    match Primitive.ofNumberFormat? f with
    | some p => return p
    | none => failShape (.unknownFormat f kind) (.str path)
  | _ => failShape (.notPrimitive kind) (.str path)

/-- The value of a token as a scalar of the type, or why it has none. -/
def readEnumValue (token : Value) (primitive : Primitive) : Except Fault Scalar :=
  match primitive with
  | .string => token.toText.map .str
  | .boolean =>
    match token with
    | .bool b => .ok (.bool b)
    | _ => do
      let name := String.ofList ((← token.toText).toList.map Char.toLower)
      if name = "true" then .ok (.bool true)
      else if name = "false" then .ok (.bool false)
      else .error .malformedNumber
  | .int32 | .int64 | .bigInteger =>
    match token with
    | .bool _ => .error .malformedNumber
    | .float x => if x.isWhole then token.toInt.map .int else .error .malformedNumber
    | _ => token.toInt.map .int
  | .float | .double => token.toFloat.map .float

/-- The value of a token; a token that is no value of the type is an error of the schema. -/
def parseEnumValue (token : Value) (primitive : Primitive) (path : String) :
    Except Failure Scalar :=
  match readEnumValue token primitive with
  | .ok v => .ok v
  | .error .malformedNumber | .error .notNumber =>
    failShape (.unfitEnumValue token primitive) (.str path)
  | .error f => .error (.fault f)

end ResourceCompiler
