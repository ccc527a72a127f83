import ResourceCompiler.Error

/-!
# Dialects

How a target language spells types and values. Resolution decides what a fragment is, the dialect of
the language how the name of the resulting type reads.
-/

namespace ResourceCompiler

structure Dialect where
  primitive : Primitive → String
  arrayOf : (element : String) → String
  /-- A map with texts as keys. -/
  mapOf : (value : String) → String
  /-- A type declared inside a class. -/
  inner : (owner simpleName : String) → String
  /-- The base class of a resource. -/
  resourceOf : (spec status : String) → String
  /-- The value of a constant. -/
  literal : Scalar → Primitive → Except Failure String
  /-- The values under undeclared keys. -/
  object : String
  /-- What stands for a missing spec or status. -/
  void : String
  /-- The existing type of arbitrary data. -/
  any : String
  intOrString : String
  /-- The interface of resources that belong to a namespace. -/
  namespaced : String

end ResourceCompiler
