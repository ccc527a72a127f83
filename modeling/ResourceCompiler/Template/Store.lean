import ResourceCompiler.Template.Reader

/-!
# Collections of templates

Templates come from a directory or are added one by one. The first addition to a directory replaces it by
the added template alone.

What the source of a template means is the engine's affair. An engine turns a source and the values of its names
into a `Rendering`: a computation that may ask the collection for further templates, by names that it finds
on the way, before it comes to its text. It keeps nothing from one rendering to the next.
-/

namespace ResourceCompiler

inductive Templates (Source : Type) where
  | directory (files : List (String × Source))
  | memory (sources : List (String × Source))

namespace Templates

variable {Source : Type}

def empty : Templates Source := .memory []

def contains (store : Templates Source) (name : String) : Bool :=
  match store with
  | .directory files => files.any (·.1 = name)
  | .memory sources => sources.any (·.1 = name)

def add (store : Templates Source) (name : String) (source : Source) : Templates Source :=
  match store with
  | .directory _ => .memory [(name, source)]
  | .memory sources => .memory ((name, source) :: sources.filter (·.1 ≠ name))

/-- The source at a path below the directory, which no path may leave. -/
def findFile (files : List (String × Source)) (name : String) : Except RenderError Source :=
  let parts := (Text.segments '/' name).filter (· ≠ ".")
  if parts.contains ".." then .error (.unknownTemplate name)
  else (files.lookup (Text.join "/" parts)).elim (.error (.unknownFile name)) .ok

def find (store : Templates Source) (name : String) : Except RenderError Source :=
  match store with
  | .directory files => findFile files name
  | .memory sources => (sources.lookup name).elim (.error (.unknownTemplate name)) .ok

end Templates

/-- What a template becomes: its text or what stops it, after any number of templates that it asks for. An
engine may go on without a template that is not there. -/
inductive Rendering (Source : Type) where
  | done (result : Except Template.Stop String)
  | load (name : String) (go : Except RenderError Source → Rendering Source)

/-- How the sources of templates are rendered. -/
abbrev Engine (Source : Type) := Source → Template.Context → Rendering Source

namespace Rendering

variable {Source : Type}

/-- The result, with templates found by `find`. -/
def run (find : String → Except RenderError Source) : Rendering Source → Except Template.Stop String
  | .done result => result
  | .load name go => run find (go (find name))

/-- The rendering of the template that a name stands for. -/
def ofName (engine : Engine Source) (name : String) (context : Template.Context) : Rendering Source :=
  .load name fun
    | .ok source => engine source context
    | .error e => .done (.error (.error e))

/-- The result of a rendering, with its errors named by `wrap`. -/
def finish (wrap : RenderError → TemplateError) (result : Except Template.Stop String) : Except Failure String :=
  match result with
  | .ok text => .ok text
  | .error (.error e) => .error (.generator (.template (wrap e) .null))
  | .error (.fault f) => .error (.fault f)

end Rendering

namespace Templates

open Rendering (finish)

variable {Source : Type}

/-- The text of a template of the collection. -/
def renderBy (engine : Engine Source) (store : Templates Source) (name : String) (context : Template.Context) :
    Except Failure String :=
  finish (.failedTemplate name) ((Rendering.ofName engine name context).run store.find)

end Templates

/-! ### The engine of the templates here -/

namespace Template

/-- A template as text, or already read. -/
inductive Source where
  | text (s : String)
  | parts (template : Template)

instance : Coe String Source := ⟨.text⟩

def Source.read : Source → Except RenderError Template
  | .text s => Template.read s
  | .parts template => .ok template

/-- Reads a source and renders its parts, which never ask for other templates. -/
def engine : Engine Source := fun source context =>
  .done <|
    match source.read with
    | .ok template => renderParts context template
    | .error e => .error (.error e)

end Template

/-- Templates of the engine here. -/
abbrev TemplateStore := Templates Template.Source

namespace TemplateStore

/-- The text of a template of the collection. -/
def render (store : TemplateStore) (name : String) (context : Template.Context) : Except Failure String :=
  store.renderBy Template.engine name context

/-- The text of a template given as text. -/
def renderString (source : String) (context : Template.Context) : Except Failure String :=
  Rendering.finish .failedString ((Template.engine source context).run fun name => .error (.unknownTemplate name))

end TemplateStore

end ResourceCompiler
