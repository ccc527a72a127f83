import ResourceCompiler.Config
import ResourceCompiler.Descriptor
import ResourceCompiler.Dialect
import ResourceCompiler.Naming.Collision
import ResourceCompiler.Primitive

/-!
# Resolving schemas into types

`Resolver.resolve` gives the type of a fragment found as a member of an object, `resolveObject` makes a
class of any fragment. Each class comes with the artifacts found below it, children before their
parents and in the order of the properties; arrays and maps only forward what their element produced.
-/

namespace ResourceCompiler

/-- What a resolution depends on beside the schema. -/
structure Resolver where
  config : Config
  names : Sanitizer
  types : Dialect

/-- The class that a member belongs to. -/
structure Scope where
  className : String
  path : String
  /-- The package of the classes of its members. -/
  memberPackage : List String

/-- The fields and artifacts of a class so far, and the property that generated each type. -/
structure Members where
  fields : List (Field Descriptor) := []
  artifacts : List Descriptor := []
  claimed : List (String × Scalar) := []

/-- The name of the field that holds all undeclared keys. -/
def additionalProperties : String := "additionalProperties"

namespace Members

/--
Notes the property that generated each artifact, the first one when there are several; two properties
must not generate one type.
-/
def claim (claimed : List (String × Scalar)) (property : Scalar) (artifacts : List Descriptor)
    (path : String) : Except Failure (List (String × Scalar)) :=
  match artifacts with
  | [] => .ok claimed
  | a :: rest =>
    let first := (claimed.lookup a.name).getD property
    if first.same property then claim ((a.name, first) :: claimed) property rest path
    else .error (.generator (.duplicateType a.name [first, property] (.str path)))

def add (m : Members) (field : Field Descriptor) (property : Scalar) (artifacts : List Descriptor)
    (path : String) : Except Failure Members := do
  let claimed ← claim m.claimed property artifacts path
  return ⟨m.fields ++ [field], m.artifacts ++ artifacts, claimed⟩

/-- The field of all undeclared keys, whose identifier no other field may have. -/
def catchAllField (m : Members) (type : Descriptor) (path : String) :
    Except Failure (Field Descriptor) :=
  match m.fields.find? (·.identifier = additionalProperties) with
  | some f =>
    .error (.generator (.duplicateField additionalProperties [f.rawName, .str additionalProperties]
      (.str path)))
  | none =>
    .ok { identifier := additionalProperties, rawName := .str additionalProperties, type,
          catchAll := true }

end Members

namespace Resolver

def checkDepth (r : Resolver) (path : String) (depth : Int) : Except Failure Unit :=
  if r.config.maxDepth.exceededBy depth then
    .error (.generator (.tooDeep r.config.maxDepth (.str path)))
  else .ok ()

def resolvePrimitive (r : Resolver) (node : Node) (path : String) : Except Failure PrimitiveType := do
  let primitive ← classify node.kind node.traits.format path
  return {
    name := r.types.primitive primitive, primitive
    format := node.traits.format, minimum := node.traits.minimum, maximum := node.traits.maximum
    pattern := node.traits.pattern }

/-- The values of an enum that get a constant: null gets none, and only a nullable enum may list it. -/
def enumTokens (node : Node) (path : String) : Except Failure (List Value) := do
  if node.enumValues.any Value.isNull && !node.traits.nullable.truthy then
    failShape .nullEnumValue (.str path)
  else
    let tokens := node.enumValues.filter (!·.isNull)
    if tokens.isEmpty then failShape .emptyEnum (.str path) else return tokens

/-- The type of an enum's values. -/
def enumBacking (r : Resolver) (node : Node) (path : String) : Except Failure PrimitiveType := do
  let backing ← r.resolvePrimitive (.basic { format := node.traits.format } node.enumBase) path
  -- integers without a format are long ones, to have literals
  if backing.primitive = .bigInteger then
    return { name := r.types.primitive .int64, primitive := .int64 }
  else return backing

def enumIdentifier (r : Resolver) (token : Value) (value : Scalar) (primitive : Primitive) : String :=
  match primitive with
  | .boolean => if value.truthy then "TRUE" else "FALSE"
  | .string => r.names.constant value.text r.config.enumUppercase.truthy
  | _ => r.names.constant token.text true

/-- The constants of the tokens, after those in `seen`, which come with the text of their token. -/
def enumEntries (r : Resolver) (primitive : Primitive) (path : String)
    (seen : List (String × String)) : List Value → Except Failure (List EnumEntry)
  | [] => .ok []
  | token :: rest => do
    let value ← parseEnumValue token primitive path
    let text ← token.toText
    let identifier := r.enumIdentifier token value primitive
    match seen.lookup identifier with
    | some first =>
      .error (.generator (.duplicateConstant identifier [first, text] (.str path)))
    | none =>
      let literal ← r.types.literal value primitive
      let entries ← r.enumEntries primitive path (seen ++ [(identifier, text)]) rest
      return ⟨identifier, value, literal⟩ :: entries

/-- The qualified name of an enum: inside its owner when it has one, else inside the package. -/
def enumName (r : Resolver) (package : List String) (owner? : Option String) (name : String) : String :=
  match owner? with
  | some owner => if owner = "" then Naming.qualified package name else r.types.inner owner name
  | none => Naming.qualified package name

def resolveEnum (r : Resolver) (node : Node) (name : String) (package : List String)
    (owner? : Option String) (path : String) : Except Failure Resolution := do
  let tokens ← enumTokens node path
  let backing ← r.enumBacking node path
  let entries ← r.enumEntries backing.primitive path [] tokens
  let type : EnumType := {
    simpleName := name, name := r.enumName package owner? name, entries, backing, package, owner?
    description := node.traits.description }
  return ⟨.enum type, [.enum type]⟩

def existing (name : String) : Resolution := ⟨.existing name, []⟩

def arrayOf (r : Resolver) (element : Resolution) : Resolution :=
  ⟨.array (r.types.arrayOf element.type.name) element.type, element.artifacts⟩

def mapType (r : Resolver) (value : Descriptor) : Descriptor :=
  .map (r.types.mapOf value.name) value

def mapOf (r : Resolver) (value : Resolution) : Resolution :=
  ⟨r.mapType value.type, value.artifacts⟩

/--
The values under undeclared keys: those of the schema they have, else any object where the fragment or
the configuration keeps such keys.
-/
def undeclared? (r : Resolver) (traits : Traits) (additional : Additional Node)
    (typed? : Option Resolution) : Option Resolution :=
  match typed? with
  | some value => some value
  | none =>
    if traits.preservesUnknown || additional.isOpen || r.config.preservesUnknown.truthy then
      some (existing r.types.object)
    else none

/-- Adds the field of all undeclared keys, when their values have a type. -/
def addCatchAll (r : Resolver) (scope : Scope) (members : Members) (value? : Option Resolution) :
    Except Failure Members := do
  match value? with
  | some value =>
    let field ← members.catchAllField (r.mapType value.type) scope.path
    members.add field (.str additionalProperties) value.artifacts scope.path
  | none => return members

/-- What the members of a class need to know about it. -/
def scopeOf (r : Resolver) (name : String) (package : List String) (path : String) : Scope where
  className := Naming.qualified package name
  path := if path = "" then Naming.qualified package name else path
  memberPackage := package ++ [r.names.packageSegment name]

/--
The class of an object, or the existing type that is configured in its place. `members` resolves the
properties, `value` the schema of additional properties.
-/
def buildClass (r : Resolver) (traits : Traits) (properties : List (Scalar × Node))
    (additional : Additional Node) (name : String) (package : List String) (path : String)
    (members : Scope → Except Failure Members)
    (value : Scope → Except Failure (Option Resolution)) : Except Failure Resolution := do
  let scope := r.scopeOf name package path
  match r.config.existingType? scope.className with
  | some override => return existing override
  | none =>
    checkCollisions r.names properties scope.path
    let declared ← members scope
    let typed? ← value scope
    let value? := r.undeclared? traits additional typed?
    let all ← r.addCatchAll scope declared value?
    let type : ObjectType Descriptor := {
      simpleName := name, name := scope.className, fields := all.fields, nested := all.artifacts, package
      preservesUnknown := typed?.isNone && value?.isSome, description := traits.description }
    return ⟨.object type, all.artifacts ++ [.object type]⟩

/-- The field of a property. -/
def memberField (r : Resolver) (required : List Scalar) (property : Scalar) (traits : Traits)
    (type : Descriptor) : Except Fault (Field Descriptor) := do
  return {
    identifier := r.names.identifier property.text, rawName := property, type
    required := required.any (·.same property)
    nullable := traits.nullable, default? := traits.default?, deprecated := ← traits.isDeprecated
    description := traits.description }

mutual

/-- The type of a member: `name` and `package` are for a class or an enum that it may become. -/
def resolve (r : Resolver) (name : String) (package : List String) (owner? : Option String)
    (path : String) (depth : Int) : Node → Except Failure Resolution
  | .object traits properties required additional => do
    r.checkDepth path depth
    if traits.intOrString then return existing r.types.intOrString
    else if properties.isEmpty && additional.isOpen then return existing r.types.any
    else
      r.buildClass traits properties additional name package path
        (fun scope => r.resolveMembers scope depth required properties {} properties)
        (fun scope => r.resolveAdditional scope depth additional)
  | .array traits items => do
    r.checkDepth path depth
    if traits.intOrString then return existing r.types.intOrString
    else return r.arrayOf (← r.resolve name package owner? (path ++ "[]") (depth + 1) items)
  | .map traits values => do
    r.checkDepth path depth
    if traits.intOrString then return existing r.types.intOrString
    else return r.mapOf (← r.resolve name package owner? (path ++ "\x7b\x7d") (depth + 1) values)
  | .enum traits base values => do
    r.checkDepth path depth
    if traits.intOrString then return existing r.types.intOrString
    else r.resolveEnum (.enum traits base values) name package owner? path
  | .basic traits type => do
    r.checkDepth path depth
    if traits.intOrString then return existing r.types.intOrString
    else return ⟨.primitive (← r.resolvePrimitive (.basic traits type) path), []⟩
  | .any traits => do
    r.checkDepth path depth
    return existing (if traits.intOrString then r.types.intOrString else r.types.any)
termination_by structural node => node

/-- The fields of properties that give way to none of the `siblings`, after `members`. -/
def resolveMembers (r : Resolver) (scope : Scope) (depth : Int) (required : List Scalar)
    (siblings : List (Scalar × Node)) (members : Members) :
    List (Scalar × Node) → Except Failure Members
  | [] => .ok members
  | (property, node) :: rest => do
    if givesWay r.names siblings (property, node) then
      r.resolveMembers scope depth required siblings members rest
    else
      let resolved ← r.resolve (r.names.typeName property.text) scope.memberPackage
        (some scope.className) (scope.path ++ "." ++ property.text) (depth + 1) node
      let field ← r.memberField required property node.traits resolved.type
      let members ← members.add field property resolved.artifacts scope.path
      r.resolveMembers scope depth required siblings members rest
termination_by structural properties => properties

/-- The type of the values under undeclared keys, when they have a schema. -/
def resolveAdditional (r : Resolver) (scope : Scope) (depth : Int) :
    Additional Node → Except Failure (Option Resolution)
  | .typed schema => do
    let value ← r.resolve (r.names.typeName additionalProperties) scope.memberPackage
      (some scope.className) (scope.path ++ ".\x7b\x7d") (depth + 1) schema
    return some value
  | .closed => .ok none
  | .open => .ok none
termination_by structural additional => additional

end

/-- The items of an array or the values of a map; of another fragment, something without a type. -/
def itemsOf (node : Node) : Node := node.items?.getD .nothing

def resolveArray (r : Resolver) (node : Node) (name : String) (package : List String)
    (owner? : Option String) (path : String) (depth : Int) : Except Failure Resolution := do
  return r.arrayOf (← r.resolve name package owner? (path ++ "[]") (depth + 1) (itemsOf node))

def resolveMap (r : Resolver) (node : Node) (name : String) (package : List String)
    (owner? : Option String) (path : String) (depth : Int) : Except Failure Resolution := do
  return r.mapOf (← r.resolve name package owner? (path ++ "\x7b\x7d") (depth + 1) (itemsOf node))

/-- What a fragment that must become a class says about undeclared keys: a map keeps its values. -/
def additionalOf : Node → Additional Node
  | .map _ values => .typed values
  | node => node.additional

/-- The class of any fragment; one that is no object has no properties. -/
def resolveObject (r : Resolver) (node : Node) (name : String) (package : List String)
    (path : String) (depth : Int) : Except Failure Resolution := do
  r.checkDepth path depth
  r.buildClass node.traits node.properties (additionalOf node) name package path
    (fun scope => r.resolveMembers scope depth node.required node.properties {} node.properties)
    (fun scope => r.resolveAdditional scope depth (additionalOf node))

end Resolver

end ResourceCompiler
