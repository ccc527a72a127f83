import ResourceCompiler.Schema.Kind
import ResourceCompiler.Value

/-!
# Resolved types

What fields of generated classes refer to. Arrays, maps and scalars are spelled in place, classes and
enums are artifacts, which get generated. `nested` of a class holds every artifact found below it,
children before their parents and in the order of the properties.
-/

namespace ResourceCompiler

/-- A scalar type with the bounds of its schema, null where there are none. -/
structure PrimitiveType where
  name : String
  primitive : Primitive
  format : Value := .null
  minimum : Value := .null
  maximum : Value := .null
  pattern : Value := .null

/-- A constant of an enum with its value, as data and as a literal. -/
structure EnumEntry where
  identifier : String
  value : Scalar
  literal : String

structure EnumType where
  simpleName : String
  name : String
  entries : List EnumEntry
  backing : PrimitiveType
  package : List String
  /-- The class that declares the enum. -/
  owner? : Option String
  description : Value

/-- A field of a class whose types are `α`. -/
structure Field (α : Type) where
  identifier : String
  /-- The name in the schema, under which the field is read and written. -/
  rawName : Scalar
  type : α
  required : Bool := false
  nullable : Value := .null
  default? : Option Value := none
  deprecated : Bool := false
  description : Value := .null
  /-- Whether the field is the map of all undeclared keys. -/
  catchAll : Bool := false

structure ObjectType (α : Type) where
  simpleName : String
  name : String
  fields : List (Field α)
  nested : List α
  package : List String
  /-- Whether undeclared keys are kept without a type. -/
  preservesUnknown : Bool
  description : Value

/-- What a manifest says about a resource, as it stands there. -/
structure ResourceInfo where
  group : Value
  version : Value
  scope : Value
  singular : Value
  plural : Value
  storage : Value
  served : Value
  description : Value

/-- A resource: a class that wraps the classes of its spec and its status. -/
structure ResourceType (α : Type) where
  simpleName : String
  name : String
  info : ResourceInfo
  specType : String
  statusType : String
  baseType : String
  interfaces : List String
  nested : List α
  package : List String

inductive Descriptor where
  | primitive (type : PrimitiveType)
  | array (name : String) (element : Descriptor)
  | map (name : String) (value : Descriptor)
  | existing (name : String)
  | enum (type : EnumType)
  | object (type : ObjectType Descriptor)
  | resource (type : ResourceType Descriptor)

namespace Descriptor

/-- The qualified name, or for arrays and maps the spelling. -/
def name : Descriptor → String
  | .primitive t => t.name
  | .array n _ | .map n _ | .existing n => n
  | .enum t => t.name
  | .object t => t.name
  | .resource t => t.name

def simpleName : Descriptor → String
  | .enum t => t.simpleName
  | .object t => t.simpleName
  | .resource t => t.simpleName
  | t => t.name

def kindName : Descriptor → String
  | .primitive _ => "primitive"
  | .array .. => "array"
  | .map .. => "map"
  | .existing _ => "existing"
  | .enum _ => "enum"
  | .object _ => "object"
  | .resource _ => "custom_resource"

def package : Descriptor → List String
  | .enum t => t.package
  | .object t => t.package
  | .resource t => t.package
  | _ => []

/-- The fields of a class; those of a resource come with its base class. -/
def fields : Descriptor → List (Field Descriptor)
  | .object t => t.fields
  | _ => []

def nested : Descriptor → List Descriptor
  | .object t => t.nested
  | .resource t => t.nested
  | _ => []

def description : Descriptor → Value
  | .enum t => t.description
  | .object t => t.description
  | .resource t => t.info.description
  | _ => .null

/-- Whether the type is generated as a unit of its own. -/
def isUnit : Descriptor → Bool
  | .object _ | .resource _ => true
  | _ => false

end Descriptor

/-- The type of a fragment, and every artifact found on the way, children before their parents. -/
structure Resolution where
  type : Descriptor
  artifacts : List Descriptor := []

end ResourceCompiler
