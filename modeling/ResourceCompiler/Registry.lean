import ResourceCompiler.Config.Store
import ResourceCompiler.Java.Generator
import ResourceCompiler.Text.Case

/-!
# Registries of generators

Generators by language, in any case of letters, and aliases of languages. A registration stores the
language first and then its aliases one by one, up to the first that is the name of a language.
-/

namespace ResourceCompiler

/-- A class of generators. -/
structure GeneratorClass where
  name : String
  /-- Where the class is found. -/
  moduleName : String
  /-- The generator of the class under a configuration. -/
  instantiate : Config → Except Fault Generator

namespace GeneratorClass

def java : GeneratorClass where
  name := "JavaGenerator"
  moduleName := "crd_codegen.codegen.languages.java.generator"
  instantiate config := .ok (Java.generator config)

/-- The bare class, which leaves the language open. -/
def bare : GeneratorClass where
  name := "CodeGenerator"
  moduleName := "crd_codegen.codegen.core.generator"
  instantiate _ := .error .openGenerator

end GeneratorClass

structure Registry where
  generators : List (String × GeneratorClass) := []
  aliases : List (String × String) := []

/-- What a registry tells about a language. -/
structure LanguageInfo where
  language : String
  className : String
  extension : String
  aliases : List String
  moduleName : String

namespace Registry

/-- A name of a language as it is stored. -/
def keyOf (name : Value) : Except Fault String :=
  match name with
  | .str s => .ok (Text.lower s)
  | _ => .error .notText

/-- Sets what stands under a key. -/
def put {α : Type} (table : List (String × α)) (key : String) (value : α) : List (String × α) :=
  if table.any (·.1 = key) then table.map fun (k, v) => if k = key then (k, value) else (k, v)
  else table ++ [(key, value)]

/-- Registers aliases up to the first that is refused. -/
def addAliases (r : Registry) (language : String) : List Value → Registry × Except Failure Unit
  | [] => (r, .ok ())
  | name :: rest =>
    match keyOf name with
    | .error f => (r, .error (.fault f))
    | .ok key =>
      if r.generators.any (·.1 = key) then
        (r, .error (.generator (.registry (.aliasTaken name.text))))
      else addAliases { r with aliases := put r.aliases key language } language rest

/-- The registry after a registration, and whether the registration was refused. -/
def register (r : Registry) (language : Value) (class? : Option GeneratorClass) (aliases : Value) :
    Registry × Except Failure Unit :=
  match class?, keyOf language with
  | none, _ => (r, .error (.generator (.registry .notGenerator)))
  | _, .error f => (r, .error (.fault f))
  | some c, .ok key =>
    let r := { r with generators := put r.generators key c }
    if !aliases.truthy then (r, .ok ())
    else
      match aliases.elements with
      | .ok names => r.addAliases key names
      | .error f => (r, .error (.fault f))

def sorted (names : List String) : List String :=
  names.mergeSort fun a b => decide (a ≤ b)

/-- The registered languages, sorted. -/
def languages (r : Registry) : List String := sorted (r.generators.map (·.1))

/-- The language that a name stands for. -/
def resolve (r : Registry) (name : Value) : Except Fault String := do
  let key ← keyOf name
  return (r.aliases.lookup key).getD key

/-- The generator of a language, by its name or an alias. -/
def classOf (r : Registry) (name : Value) : Except Failure GeneratorClass := do
  let key ← keyOf name
  match r.generators.lookup key with
  | some c => return c
  | none =>
    match (r.aliases.lookup key).bind fun language => r.generators.lookup language with
    | some c => return c
    | none => .error (.generator (.registry (.unknownLanguage name.text r.languages)))

/-- The configuration that a generator is asked for: none, options or the path of a file. -/
def configOf (files : FileTree) (language : String) (config : Value) : Except Failure Config :=
  match config with
  | .null => Config.load files (.str language) .null .null
  | .str _ => Config.load files (.str language) .null config
  | .map _ => Config.load files (.str language) config .null
  | _ => .error (.generator (.registry (.invalidConfig config)))

def create (r : Registry) (files : FileTree) (name config : Value) : Except Failure Generator := do
  let c ← r.classOf name
  let settings ← configOf files (← r.resolve name) config
  let generator ← c.instantiate settings
  return generator

/-- A generator under a configuration that is ready. -/
def createWith (r : Registry) (name : Value) (config : Config) : Except Failure Generator := do
  let c ← r.classOf name
  let generator ← c.instantiate config
  return generator

/-- The aliases of a language, sorted. -/
def aliasesOf (r : Registry) (language : Value) : Except Fault (List String) := do
  let key ← keyOf language
  return sorted ((r.aliases.filter (·.2 = key)).map (·.1))

def info (r : Registry) (files : FileTree) (name : Value) : Except Failure LanguageInfo := do
  let c ← r.classOf name
  let language ← r.resolve name
  let generator ← c.instantiate (← Config.load files (.str language) .null .null)
  return {
    language := generator.language, className := c.name, extension := generator.extension
    aliases := ← r.aliasesOf (.str language), moduleName := c.moduleName }

/-- The registry of the languages that are there from the start. -/
def standard : Registry :=
  (({} : Registry).register (.str "java") (some .java) (.list [.str "fabric8", .str "jvm"])).1

end Registry

end ResourceCompiler
