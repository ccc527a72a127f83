import ResourceCompiler.CustomResource
import ResourceCompiler.Registry

/-!
# Compiling for a language

The whole way from raw data to compilations and to code, with the generator that a registry has for a
language.
-/

namespace ResourceCompiler

namespace Registry

def segmentOf (v : Value) : Except Fault String :=
  match v with
  | .str s => .ok s
  | _ => .error .notSegment

/-- A package as its segments, which a text has between its points. -/
def packageOf (package : Value) : Except Fault (List String) :=
  match package with
  | .str s => .ok (Text.segments '.' s)
  | v => do (← v.elements).mapM segmentOf

end Registry

namespace Resolver

/-- The class of a schema, with everything below it. -/
def resolveSchema (r : Resolver) (schema : Value) (name : String) (package : Value) :
    Except Failure Resolution := do
  let root ← Node.ofValue schema (.str name) r.config.maxDepth
  let package ← Registry.packageOf package
  r.resolveObject root (r.names.typeName name) package "" 0

def compileSchema (r : Resolver) (schema : Value) (name : String) (package : Value) :
    Except Failure Compilation := do
  Compilation.ofResolution (← r.resolveSchema schema name package)

end Resolver

namespace Registry

/-- The compilation of a single schema. -/
def compileSchema (r : Registry) (files : FileTree) (schema : Value) (name : String) (package : Value)
    (config language : Value) : Except Failure Compilation := do
  (← r.create files language config).resolver.compileSchema schema name package

/-- Every version of a definition. -/
def compileDefinition (r : Registry) (files : FileTree) (document config language : Value) :
    Except Failure (List Compilation) := do
  (← r.create files language config).resolver.compileDefinition document

def generateDefinition (r : Registry) (files : FileTree) (document config language : Value) :
    Except Failure Generation := do
  let generator ← r.create files language config
  generator.generate (← generator.resolver.compileDefinition document)

end Registry

end ResourceCompiler
