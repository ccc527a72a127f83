import ResourceCompiler.Schema.Kind
import ResourceCompiler.Text.Blank
import ResourceCompiler.Value

/-!
# Schema trees

A fragment of a schema after reading: one constructor per shape, each with exactly the parts that the
shape has. What every fragment may carry beside its shape is in `Traits`.
-/

namespace ResourceCompiler

/-- What a fragment says beside its shape; a value that is absent is null. -/
structure Traits where
  format : Value := .null
  default? : Option Value := none
  nullable : Value := .null
  description : Value := .null
  minimum : Value := .null
  maximum : Value := .null
  pattern : Value := .null
  preservesUnknown : Bool := false
  intOrString : Bool := false
deriving Inhabited

/-- What an object allows beside its declared properties. -/
inductive Additional (α : Type) where
  | closed
  | open
  | typed (schema : α)

namespace Additional

def isOpen {α : Type} : Additional α → Bool
  | .open => true
  | _ => false

end Additional

inductive Node where
  | object (traits : Traits) (properties : List (Scalar × Node)) (required : List Scalar)
      (additional : Additional Node)
  | array (traits : Traits) (items : Node)
  | map (traits : Traits) (values : Node)
  | enum (traits : Traits) (base : Basic) (values : List Value)
  | basic (traits : Traits) (type : Basic)
  | any (traits : Traits)
deriving Inhabited

namespace Node

def traits : Node → Traits
  | .object t .. | .array t _ | .map t _ | .enum t .. | .basic t _ | .any t => t

def kind : Node → Kind
  | .object .. => .object
  | .array .. => .array
  | .map .. => .map
  | .enum .. => .enum
  | .basic _ b => .basic b
  | .any _ => .any

/-- The elements of an array or the values of a map. -/
def items? : Node → Option Node
  | .array _ n | .map _ n => some n
  | _ => none

def properties : Node → List (Scalar × Node)
  | .object _ ps _ _ => ps
  | _ => []

def required : Node → List Scalar
  | .object _ _ r _ => r
  | _ => []

def additional : Node → Additional Node
  | .object _ _ _ a => a
  | _ => .closed

def enumValues : Node → List Value
  | .enum _ _ vs => vs
  | _ => []

/-- The type that the values of an enum have; other fragments count as texts. -/
def enumBase : Node → Basic
  | .enum _ b _ => b
  | _ => .string

/-- A fragment that says nothing. -/
def nothing : Node := .any {}

end Node

namespace Traits

/-- Whether the description marks the fragment as deprecated, in any case. -/
def isDeprecated (t : Traits) : Except Fault Bool :=
  if !t.description.truthy then .ok false
  else
    match t.description with
    | .str s => .ok (Text.occursIn "deprecated".toList (s.toList.map Char.toLower))
    | _ => .error .notText

end Traits

namespace Node

def isDeprecated (n : Node) : Except Fault Bool := n.traits.isDeprecated

/-- Whether the fragment is known to be deprecated. -/
def isMarked (n : Node) : Bool :=
  match n.isDeprecated with
  | .ok b => b
  | .error _ => false

/-- The fragment of the property with the name. -/
def property? (n : Node) (name : String) : Option Node :=
  (n.properties.find? (·.1.same (.str name))).map (·.2)

end Node

end ResourceCompiler
