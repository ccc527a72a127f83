import ResourceCompiler.Compilation
import ResourceCompiler.Resolver
import ResourceCompiler.Source
import ResourceCompiler.Template.Store

/-!
# Generating code

`Generator.generate` renders compilations into files, each at the path that the package and the name of
its class give. An error in any of them leaves no file at all.
-/

namespace ResourceCompiler

/-- Code for one language under one configuration. -/
structure Generator where
  className : String
  language : String
  extension : String
  config : Config
  templates : TemplateStore
  resolver : Resolver
  /-- The unit of a class of a compilation, as text. -/
  render : Descriptor → Compilation → Except Failure String
  /-- What should be known about a compilation. -/
  warnings : Compilation → Except Failure (List String)

/-- Texts by path; a path that is written again keeps its place. -/
abbrev Files := List (String × String)

namespace Files

def put (files : Files) (path text : String) : Files :=
  match files with
  | [] => [(path, text)]
  | (p, t) :: rest => if p = path then (p, text) :: rest else (p, t) :: put rest path text

def merge (files changes : Files) : Files :=
  changes.foldl (fun fs (path, text) => put fs path text) files

end Files

/-- What code was generated for what. -/
structure Metadata where
  language : String
  extension : String
  files : Nat
  topLevel : Nat
  inner : Nat

inductive Generation where
  | generated (files : Files) (warnings : List String) (metadata : Metadata)
  | failed (cause : GeneratorError)

namespace Generator

/-- The path of the unit of a class. -/
def pathOf (g : Generator) (t : Descriptor) : String :=
  Text.join "/" (t.package ++ [t.simpleName ++ g.extension])

/-- The units of a compilation in their normal form. -/
def units (g : Generator) (c : Compilation) : Except Failure Files :=
  c.topLevel.foldlM (fun (files : Files) t => do
    return files.put (g.pathOf t) (Source.format (← g.render t c))) []

/-- The files and warnings of compilations, in order. -/
def filesOf (g : Generator) (files : Files) (warnings : List String) :
    List Compilation → Except Failure (Files × List String)
  | [] => .ok (files, warnings)
  | c :: rest => do
    let more ← g.warnings c
    let units ← g.units c
    g.filesOf (files.merge units) (warnings ++ more) rest

def metadata (g : Generator) (files : Files) (cs : List Compilation) : Metadata where
  language := g.language
  extension := g.extension
  files := files.length
  topLevel := (cs.map (·.topLevel.length)).foldl (· + ·) 0
  inner := (cs.map (·.inner.length)).foldl (· + ·) 0

/-- All files of compilations, or the error that stopped them. -/
def generate (g : Generator) (cs : List Compilation) : Except Failure Generation :=
  match g.filesOf [] [] cs with
  | .ok (files, warnings) => .ok (.generated files warnings (g.metadata files cs))
  | .error (.generator e) => .ok (.failed e)
  | .error failure => .error failure

end Generator

namespace Generation

def succeeded : Generation → Bool
  | .generated .. => true
  | .failed _ => false

/-- A generation that failed has no files. -/
def files : Generation → Files
  | .generated files _ _ => files
  | .failed _ => []

def failureMessage (e : GeneratorError) : String := "Code generation failed: " ++ e.message

end Generation

end ResourceCompiler
