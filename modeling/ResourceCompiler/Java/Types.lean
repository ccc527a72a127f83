import ResourceCompiler.Dialect
import ResourceCompiler.Java.Literal

/-!
# Spelling types

The qualified names of the types that generated code builds on, and the dialect that they give.
-/

namespace ResourceCompiler.Java

structure TypeNames where
  string : String := "java.lang.String"
  int : String := "java.lang.Integer"
  long : String := "java.lang.Long"
  bigInteger : String := "java.math.BigInteger"
  float : String := "java.lang.Float"
  double : String := "java.lang.Double"
  bool : String := "java.lang.Boolean"
  list : String := "java.util.List"
  map : String := "java.util.Map"
  object : String := "java.lang.Object"
  void : String := "java.lang.Void"
  any : String := "io.fabric8.kubernetes.api.model.AnyType"
  intOrString : String := "io.fabric8.kubernetes.api.model.IntOrString"
  namespaced : String := "io.fabric8.kubernetes.api.model.Namespaced"
  customResource : String := "io.fabric8.kubernetes.client.CustomResource"

namespace TypeNames

def primitive (t : TypeNames) : Primitive → String
  | .string => t.string
  | .int32 => t.int
  | .int64 => t.long
  | .bigInteger => t.bigInteger
  | .float => t.float
  | .double => t.double
  | .boolean => t.bool

def arrayOf (t : TypeNames) (element : String) : String :=
  t.list ++ "<" ++ element ++ ">"

def mapOf (t : TypeNames) (value : String) : String :=
  t.map ++ "<" ++ t.string ++ ", " ++ value ++ ">"

/-- A type declared inside a class. -/
def inner (owner simpleName : String) : String :=
  owner ++ "." ++ simpleName

def resourceOf (t : TypeNames) (spec status : String) : String :=
  t.customResource ++ "<" ++ spec ++ ", " ++ status ++ ">"

def dialect (t : TypeNames) : Dialect where
  primitive := t.primitive
  arrayOf := t.arrayOf
  mapOf := t.mapOf
  inner := inner
  resourceOf := t.resourceOf
  literal v p := (literal (.scalar v) p).mapError .fault
  object := t.object
  void := t.void
  any := t.any
  intOrString := t.intOrString
  namespaced := t.namespaced

end TypeNames

end ResourceCompiler.Java
