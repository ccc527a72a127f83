/-!
# Kinds of schemas and of scalar types
-/

namespace ResourceCompiler

/-- The types a schema may give to a scalar. -/
inductive Basic where
  | string | integer | number | boolean
deriving DecidableEq, Repr

/-- The shapes of a schema fragment; `any` has no type information at all. -/
inductive Kind where
  | object | array | map | basic (b : Basic) | enum | any
deriving DecidableEq, Repr

/-- The scalar types that fragments resolve to. -/
inductive Primitive where
  | string | int32 | int64 | bigInteger | float | double | boolean
deriving DecidableEq, Repr

namespace Basic

def all : List Basic := [.string, .integer, .number, .boolean]

def name : Basic → String
  | .string => "string"
  | .integer => "integer"
  | .number => "number"
  | .boolean => "boolean"

def ofName? (name : String) : Option Basic :=
  all.find? (·.name = name)

end Basic

namespace Kind

def all : List Kind :=
  [.object, .array, .map, .enum, .any] ++ Basic.all.map .basic

def name : Kind → String
  | .object => "object"
  | .array => "array"
  | .map => "map"
  | .basic b => b.name
  | .enum => "enum"
  | .any => "any"

def ofName? (name : String) : Option Kind :=
  all.find? (·.name = name)

end Kind

namespace Primitive

def all : List Primitive := [.string, .int32, .int64, .bigInteger, .float, .double, .boolean]

def name : Primitive → String
  | .string => "string"
  | .int32 => "int32"
  | .int64 => "int64"
  | .bigInteger => "big_integer"
  | .float => "float"
  | .double => "double"
  | .boolean => "boolean"

def ofName? (name : String) : Option Primitive :=
  all.find? (·.name = name)

/-- Whether the values of the type are integers. -/
def isInteger : Primitive → Bool
  | .int32 | .int64 | .bigInteger => true
  | _ => false

end Primitive

end ResourceCompiler
