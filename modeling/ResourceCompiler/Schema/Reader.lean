import ResourceCompiler.Error
import ResourceCompiler.Schema.Node

/-!
# Reading schemas

`Node.ofValue` turns a raw fragment into a tree. Every property, every array's items and every schema
of additional properties lies one level deeper than its fragment, and no fragment may lie beyond the
limit. An object that declares only the schema of its additional properties is a map.
-/

namespace ResourceCompiler

/-- The place of a part of the fragment at `path`; the part's name alone when nobody knows the path. -/
def childPath (path : Value) (name : Scalar) : Value :=
  if path.truthy then .str (path.text ++ "." ++ name.text) else .scalar name

namespace Node

/-- Fails when `depth` lies beyond the limit. -/
def checkDepth (limit : Limit) (path : Value) (depth : Nat) : Except Failure Unit :=
  if limit.exceededBy depth then
    .error (.generator (.tooDeep limit (if path.truthy then path else .str "<root>")))
  else .ok ()

/-- The scalar type of a name. -/
def basicOf (type : Value) (path : Value) : Except Failure Basic := do
  let name ← type.key
  match name with
  | .str s =>
    match Basic.ofName? s with
    | some b => return b
    | none => failShape (.unknownType name) path
  | _ => failShape (.unknownType name) path

/-- A set of keys as a list without repetitions. -/
def distinctKeys (keys : List Scalar) : List Scalar :=
  keys.foldl (fun seen k => if seen.any (·.same k) then seen else seen ++ [k]) []

/-- The names of the required properties. -/
def requiredNames (v : Value) : Except Fault (List Scalar) :=
  if !v.truthy then .ok []
  else do
    let names ← v.elements
    return distinctKeys (← names.mapM Value.key)

def traitsOf (es : Entries) : Traits where
  format := es.get "format"
  default? := es.find? (.str "default")
  nullable := es.get "nullable"
  description := es.get "description"
  minimum := es.get "minimum"
  maximum := es.get "maximum"
  pattern := es.get "pattern"
  preservesUnknown := (es.get "x-kubernetes-preserve-unknown-fields").truthy
  intOrString := (es.get "x-kubernetes-int-or-string").truthy

/-- The shapes that the entries of a fragment can have. -/
inductive Shape where
  | enum | array | object | any | basic

/-- The shape of a fragment; without a type its parts tell it. -/
def shapeOf (es : Entries) : Shape :=
  let type := es.get "type"
  if !(es.get "enum").isNull then .enum
  else if type.equalsScalar (.str "array") then .array
  else if type.equalsScalar (.str "object") then .object
  else if type.isNull then
    if es.has "properties" || es.has "additionalProperties" then .object else .any
  else .basic

mutual

def readFragment (limit : Limit) (path : Value) (depth : Nat) : Value → Except Failure Node
  | .map entries => do
    let es : Entries := entries
    checkDepth limit path depth
    let traits := traitsOf es
    match shapeOf es with
    | .enum =>
      let type := es.get "type"
      let base ← basicOf (if type.truthy then type else .str "string") path
      return .enum traits base (← (es.get "enum").elements)
    | .array => return .array traits (← readItems limit path depth entries)
    | .object =>
      match ← readAdditional limit path depth entries with
      | .typed schema =>
        if (es.get "properties").truthy then
          let properties ← readProperties limit path depth entries
          return .object traits properties (← requiredNames (es.get "required")) (.typed schema)
        else return .map traits schema
      | additional =>
        let properties ← readProperties limit path depth entries
        return .object traits properties (← requiredNames (es.get "required")) additional
    | .any => return .any traits
    | .basic => return .basic traits (← basicOf (es.get "type") path)
  | v => do
    checkDepth limit path depth
    failShape (.notMapping v) path
termination_by structural v => v

/-- The items of an array with these entries; absent or empty items say nothing. -/
def readItems (limit : Limit) (path : Value) (depth : Nat) :
    List (Scalar × Value) → Except Failure Node
  | [] => do
    checkDepth limit (childPath path (.str "[]")) (depth + 1)
    return .nothing
  | (k, v) :: rest =>
    if k.same (.str "items") then
      if v.truthy then readFragment limit (childPath path (.str "[]")) (depth + 1) v
      else do
        checkDepth limit (childPath path (.str "[]")) (depth + 1)
        return .nothing
    else readItems limit path depth rest
termination_by structural es => es

/-- What an object with these entries allows beside its properties. -/
def readAdditional (limit : Limit) (path : Value) (depth : Nat) :
    List (Scalar × Value) → Except Failure (Additional Node)
  | [] => .ok .closed
  | (k, v) :: rest =>
    if k.same (.str "additionalProperties") then
      if v.isMap then do
        let place := childPath path (.str "\x7b\x7d")
        return .typed (← readFragment limit place (depth + 1) v)
      else .ok (if v.isTrue then .open else .closed)
    else readAdditional limit path depth rest
termination_by structural es => es

def readProperties (limit : Limit) (path : Value) (depth : Nat) :
    List (Scalar × Value) → Except Failure (List (Scalar × Node))
  | [] => .ok []
  | (k, v) :: rest =>
    if k.same (.str "properties") then
      if v.truthy then
        match v with
        | .map members => readMembers limit path depth members
        | _ => .error (.fault .notMapping)
      else .ok []
    else readProperties limit path depth rest
termination_by structural es => es

def readMembers (limit : Limit) (path : Value) (depth : Nat) :
    List (Scalar × Value) → Except Failure (List (Scalar × Node))
  | [] => .ok []
  | (name, v) :: rest => do
    let node ← readFragment limit (childPath path name) (depth + 1) v
    return (name, node) :: (← readMembers limit path depth rest)
termination_by structural es => es

end

/-- The tree of a raw schema; one that counts as false says nothing. -/
def ofValue (raw : Value) (path : Value) (limit : Limit) : Except Failure Node :=
  readFragment limit path 0 (if raw.truthy then raw else .map [])

end Node

end ResourceCompiler
