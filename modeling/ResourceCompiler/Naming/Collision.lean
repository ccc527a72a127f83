import ResourceCompiler.Error
import ResourceCompiler.Naming
import ResourceCompiler.Schema.Node

/-!
# Properties with one identifier

Properties whose names become the same identifier form a group. Of a pair with exactly one deprecated
member the other member is kept; no other group of more than one property can be reduced to one field.
-/

namespace ResourceCompiler

/-- The properties of an object that share an identifier, in order. -/
structure Group where
  identifier : String
  members : List (Scalar × Node)

namespace Group

def names (g : Group) : List Scalar := g.members.map (·.1)

/-- Adds a property to the group of its identifier, which stands where its first member does. -/
def add (identifier : String) (member : Scalar × Node) : List Group → List Group
  | [] => [⟨identifier, [member]⟩]
  | g :: rest =>
    if g.identifier = identifier then { g with members := g.members ++ [member] } :: rest
    else g :: add identifier member rest

def ofProperties (s : Sanitizer) (properties : List (Scalar × Node)) : List Group :=
  properties.foldl (fun groups p => add (s.identifier p.1.text) p groups) []

/-- Fails unless the group is reduced to one field. -/
def check (g : Group) (path : String) : Except Failure Unit :=
  match g.members with
  | [] | [_] => .ok ()
  | members => do
    let marks ← members.mapM fun (_, node) => node.isDeprecated
    if members.length > 2 || marks.count false ≠ 1 then
      .error (.generator (.duplicateField g.identifier g.names (.str path)))
    else return ()

end Group

/-- Fails unless every group of the properties is reduced to one field. -/
def checkCollisions (s : Sanitizer) (properties : List (Scalar × Node)) (path : String) :
    Except Failure Unit :=
  (Group.ofProperties s properties).forM (·.check path)

/-- Whether a property is deprecated and gives way to another one of its identifier. -/
def givesWay (s : Sanitizer) (properties : List (Scalar × Node)) (property : Scalar × Node) : Bool :=
  property.2.isMarked &&
    1 < properties.countP fun p => s.identifier p.1.text = s.identifier property.1.text

/-- The properties that become fields, in order. -/
def keptProperties (s : Sanitizer) (properties : List (Scalar × Node)) : List (Scalar × Node) :=
  properties.filter (!givesWay s properties ·)

/-- A property that becomes a field. -/
structure Member where
  identifier : String
  name : Scalar
  node : Node

/-- The fields that properties become, in order. -/
def reduceCollisions (s : Sanitizer) (properties : List (Scalar × Node)) (path : String) :
    Except Failure (List Member) := do
  checkCollisions s properties path
  return (keptProperties s properties).map fun (name, node) => ⟨s.identifier name.text, name, node⟩

end ResourceCompiler
