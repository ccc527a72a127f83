import ResourceCompiler.CommandLine.Arguments
import ResourceCompiler.Compile
import ResourceCompiler.Console.Table
import ResourceCompiler.Manifest.Source

/-!
# Running the command line

A run reads a tree of files and the pages of the web, and leaves an exit code, the lines it printed and
the tree after it. Nothing is written before everything is generated. The reader of the documents and the
console are other programs' work, and a run is given them as `Services`.
-/

namespace ResourceCompiler.CommandLine

/-- The configuration of a file with the options of the command line over it. -/
def configOf (files : FileTree) (o : Options) : Except Failure Config := do
  let file := (o.config?.map Value.str).getD .null
  let config ← Config.load files (.str o.language) .null file
  let pairs (name : String) (base : Entries) (given : List (String × String)) : Entries :=
    if given.isEmpty then []
    else [(.str name, .map (Entries.merge base (Config.textEntries given)))]
  let switch (given : Bool) (name : String) (value : Bool) : Entries :=
    if given then [(.str name, .bool value)] else []
  let changes :=
    pairs "existing_java_types" (Config.textEntries config.existingTypes) o.existingTypes ++
      pairs "package_overrides" (Config.packageEntries config.packageOverrides) o.packageOverrides ++
      switch o.preserveUnknownFields "preserve_unknown_fields" true ++
      switch o.noEnumUppercase "enum_uppercase" false ++
      switch o.noGeneratedAnnotations "generated_annotations" false
  if changes.isEmpty then return config else config.withOverrides changes

/-- What a run uses beside its files and pages. -/
structure Services where
  /-- The documents of a text. -/
  documents : Manifest.Reader
  /-- The lines that a text with markup shows. -/
  shown : String → Except Fault (List String)
  /-- The lines of a table. -/
  drawn : Console.Table → Except Fault (List String)

/-- The services of this program, with a console that knows these pictures. -/
def Services.withPictures (known : Console.Pictures) : Services where
  documents := Yaml.read
  shown text := do return (← Console.plain known text).map String.ofList
  drawn := Console.Table.lines known

def Services.standard : Services := .withPictures Console.pictures

/-- What a run leaves behind; a fault stands for an exit code when nobody expected it. -/
structure Outcome where
  exit : Except Fault Nat
  lines : List String
  files : FileTree

/-- What a run has printed and written so far. -/
structure Session where
  files : FileTree
  lines : List String := []

/-- A step of a run, which keeps what was done before it fails. -/
abbrev Run := ExceptT Failure (StateM Session)

namespace Run

def ofResult {α : Type} (x : Except Failure α) : Run α := ExceptT.mk (pure x)

def ofFault {α : Type} (x : Except Fault α) : Run α := ofResult (x : Except Failure α)

def printLines (lines : List String) : Run Unit :=
  modify fun s => { s with lines := s.lines ++ lines }

def print (services : Services) (text : String) : Run Unit := do
  printLines (← ofFault (services.shown text))

def printTable (services : Services) (t : Console.Table) : Run Unit := do
  printLines (← ofFault (services.drawn t))

end Run

open Run

/-- The table of what was compiled, one row for each version. -/
def summaryTable (cs : List Compilation) : Console.Table where
  title := "📊 Generated Types"
  frame := Console.plainFrame
  columns := [⟨"Resource", .left⟩, ⟨"Version", .left⟩, ⟨"Classes", .right⟩, ⟨"Enums", .right⟩,
    ⟨"Fields", .right⟩]
  rows := cs.map fun c =>
    let version := match c.resource? with
      | some r => r.info.version
      | none => .str ""
    let count (n : Nat) := Value.str (Text.ofInt n)
    [.str c.root.name, version, count c.summary.topLevel, count c.summary.inner,
     count c.summary.fields]

/-- Writes a file and the directories that lead to it; the tree holds what was done before an error. -/
def writeUnit (target : Path) (files : FileTree) (path text : String) :
    FileTree × Option CommandError :=
  let output := target.append (.ofString path)
  match files.makeDirectory output.parent with
  | .error e => (files, some (.unwritable output.text e))
  | .ok files =>
    match files.write output text with
    | .error e => (files, some (.unwritable output.text e))
    | .ok files => (files, none)

/-- Writes files up to the first error. -/
def writeUnits (target : Path) (files : FileTree) : Files → FileTree × Option CommandError
  | [] => (files, none)
  | (path, text) :: rest =>
    match writeUnit target files path text with
    | (files, none) => writeUnits target files rest
    | failed => failed

/-- Looks at a definition's name, which a message about it would tell. -/
def checkMetadata (d : Entries) : Except Fault Unit := do
  let _ ← (Entries.get d "metadata").entriesOrNone

def compileAll (g : Generator) (definitions : List (String × Entries)) :
    Except Failure (List Compilation) := do
  let found ← definitions.mapM fun (_, d) => do
    let _ ← checkMetadata d
    g.resolver.compileDefinition (.map d)
  return found.flatten

/-- What is generated for the options: the compilations, the files and the warnings. -/
def generateAll (services : Services) (files : FileTree) (web : Web) (o : Options) :
    Except Failure (List Compilation × Files × List String) := do
  let config ← configOf files o
  let generator ← Registry.standard.createWith (.str o.language) config
  let definitions ← Manifest.loadAll files web o.sources services.documents
  if definitions.isEmpty then throw (.command .noResources)
  let compilations ← compileAll generator definitions
  match ← generator.generate compilations with
  | .failed e => throw (.command (.generation (Generation.failureMessage e)))
  | .generated units warnings _ => return (compilations, units, warnings)

/-- What a dry run tells of so many units. -/
def dryMessage (count : Nat) : String :=
  "[yellow]Dry run:[/yellow] " ++ Text.ofInt count ++ " file(s) not written"

/-- What a run tells after it wrote so many units. -/
def wroteMessage (count : Nat) (target : String) : String :=
  "[green]✓[/green] Wrote " ++ Text.ofInt count ++ " file(s) to [cyan]" ++ target ++ "[/cyan]"

/-- Compiles the sources, and writes the files unless the run is dry. -/
def compileSources (services : Services) (web : Web) (o : Options) : Run Unit := do
  let (compilations, units, warnings) ← ofResult (generateAll services (← get).files web o)
  printTable services (summaryTable compilations)
  warnings.forM fun w => print services ("  [yellow]•[/yellow] " ++ w)
  if o.dryRun then print services (dryMessage units.length)
  else
    let target := o.target?.getD ""
    let (files, error?) := writeUnits (.ofString target) (← get).files units
    -- what was written before an error stays
    modify fun s => { s with files }
    if let some e := error? then throw (.command e)
    print services (wroteMessage units.length target)

def languageTable (r : Registry) (files : FileTree) : Except Failure Console.Table := do
  let rows ← r.languages.mapM fun language => do
    let info ← r.info files (.str language)
    let aliases := if info.aliases.isEmpty then "[dim]none[/dim]" else Text.join ", " info.aliases
    return [Value.str language, .str info.extension, .str info.className, .str aliases]
  return {
    title := "📋 Supported Languages", frame := Console.roundFrame, rows
    columns := [⟨"Language", .left⟩, ⟨"Extension", .left⟩, ⟨"Generator Class", .left⟩,
      ⟨"Aliases", .left⟩] }

def listLanguages (services : Services) : Run Unit := do
  printTable services (← ofResult (languageTable Registry.standard (← get).files))

/-- Tells an error; a fault goes on. -/
def report (services : Services) (f : Failure) : Run Nat :=
  match f.message? with
  | some message => do
    print services ("[red]✗ Error:[/red] " ++ message)
    return 1
  | none => throw f

def exitOf (services : Services) (web : Web) (o : Options) : Run Nat := do
  if o.listLanguages then
    listLanguages services
    return 0
  else
    tryCatch (do compileSources services web o; return 0) (report services)

def Outcome.ofRun (files : FileTree) (r : Run Nat) : Outcome :=
  match r.run.run { files } with
  | (.ok n, s) => ⟨.ok n, s.lines, s.files⟩
  | (.error (.fault f), s) => ⟨.error f, s.lines, s.files⟩
  | (.error _, s) => ⟨.ok 1, s.lines, s.files⟩

/-- Whether the options lack something that the run needs. -/
def missing? (o : Options) : Option UsageError :=
  if o.listLanguages then none
  else if o.sources.isEmpty then some .noSource
  else if o.target?.all (· = "") && !o.dryRun then some .noTarget
  else none

/-- A run of the program with these words, and the usage error that prevented it. -/
def run (files : FileTree) (web : Web) (words : List String) (services : Services := .standard) :
    Outcome × Option UsageError :=
  match parse words with
  | .error (.usage e) => (⟨.ok 2, [], files⟩, some e)
  | .error .version => (⟨.ok 0, [programName ++ " " ++ version], files⟩, none)
  | .error .help => (⟨.ok 0, [], files⟩, none)
  | .ok o =>
    match missing? o with
    | some e => (⟨.ok 2, [], files⟩, some e)
    | none => (Outcome.ofRun files (exitOf services web o), none)

end ResourceCompiler.CommandLine
