import ResourceCompiler.Descriptor
import ResourceCompiler.Error

/-!
# Compilations

The artifacts of a resolution by how they are generated: classes as units of their own, enums inside
their owners. Each keeps its order, and no name occurs twice.
-/

namespace ResourceCompiler

structure Compilation where
  root : Descriptor
  /-- The classes, nested ones before those they are nested in. -/
  topLevel : List Descriptor := []
  inner : List EnumType := []
  /-- All artifacts by name, in order. -/
  index : List (String × Descriptor) := []

/-- How many classes, enums and fields a compilation has. -/
structure Summary where
  topLevel : Nat
  inner : Nat
  fields : Nat

namespace Compilation

/-- Adds an artifact, unless its name is taken or it is no artifact. -/
def add (c : Compilation) (artifact : Descriptor) : Except Failure Compilation :=
  if c.index.any (·.1 = artifact.name) then
    .error (.generator (.duplicateType artifact.name [] .null))
  else
    let index := c.index ++ [(artifact.name, artifact)]
    match artifact with
    | .enum type => .ok { c with inner := c.inner ++ [type], index }
    | .object _ | .resource _ => .ok { c with topLevel := c.topLevel ++ [artifact], index }
    | _ => failShape (.notEmittable artifact.kindName) (.str artifact.name)

def ofResolution (r : Resolution) : Except Failure Compilation :=
  r.artifacts.foldlM add { root := r.type }

/-- Classes, then enums. -/
def artifacts (c : Compilation) : List Descriptor :=
  c.topLevel ++ c.inner.map .enum

/-- The resource at the root, when the compilation is of one. -/
def resource? (c : Compilation) : Option (ResourceType Descriptor) :=
  match c.root with
  | .resource type => some type
  | _ => none

/-- The enums declared inside the class of the name. -/
def innerOf (c : Compilation) (owner : String) : List EnumType :=
  c.inner.filter (·.owner? = some owner)

def summary (c : Compilation) : Summary where
  topLevel := c.topLevel.length
  inner := c.inner.length
  fields := (c.topLevel.map (·.fields.length)).foldl (· + ·) 0

end Compilation

end ResourceCompiler
