import ResourceCompiler.FileTree
import ResourceCompiler.Manifest
import ResourceCompiler.Url
import ResourceCompiler.Yaml.Document

/-!
# Loading manifests

A source is a file, a directory or the address of a page. Of a directory every file with the suffix of a
manifest is loaded, in the order of the paths. An error in any source ends the loading. How the text of a
source becomes documents is up to a reader, which comes from outside like the pages.
-/

namespace ResourceCompiler

/-- What comes back when a page is asked for. -/
inductive Response where
  | page (status : Int) (text : String)
  | timeout
  | unreachable
  | failed (cause : String)

/-- The pages that can be asked for; others cannot be reached. -/
abbrev Web := List (String × Response)

/-- The documents of a source and how the source is called. -/
structure Manifest where
  source : String
  documents : List Value

namespace Manifest

/-- Gives the documents of a text. -/
abbrev Reader := String → Except Yaml.ReadError (List Value)

def suffixes : List String := [".yaml", ".yml", ".json"]

/-- The documents of a text that are not empty. -/
def parse (text source : String) (read : Reader := Yaml.read) : Except Failure (List Value) :=
  match read text with
  | .ok documents => .ok (documents.filter (!·.isNull))
  | .error .malformed => .error (.load (.malformed source))
  | .error (.fault f) => .error (.fault f)

def loadFile (files : FileTree) (path : Path) (read : Reader := Yaml.read) : Except Failure Manifest := do
  if !files.contains path then .error (.fileNotFound path.text)
  else
    match files.read path with
    | .error e => .error (.load (.unreadable path.text e))
    | .ok text => return ⟨path.text, ← parse text path.text read⟩

/-- The paths of the manifests below a directory, in order. -/
def pathsBelow (files : FileTree) (directory : Path) : List Path :=
  let paths := (files.filesBelow directory).map fun parts => directory.append ⟨.here, parts⟩
  paths.filter fun p => suffixes.contains p.lowerSuffix

def loadDirectory (files : FileTree) (directory : Path) (read : Reader := Yaml.read) :
    Except Failure (List Manifest) :=
  (pathsBelow files directory).mapM fun path => loadFile files path read

def fetch (web : Web) (url : String) : Except LoadError String :=
  match (web.lookup url).getD .unreachable with
  | .page status text => if 400 ≤ status then .error (.status status url) else .ok text
  | .timeout => .error (.timeout url)
  | .unreachable => .error (.connection url)
  | .failed cause => .error (.request url cause)

def loadUrl (web : Web) (url : String) (read : Reader := Yaml.read) : Except Failure Manifest := do
  if !(← Url.read url).isComplete then .error (.load (.invalidUrl url))
  else
    match fetch web url with
    | .ok text => return ⟨url, ← parse text url read⟩
    | .error e => .error (.load e)

def load (files : FileTree) (web : Web) (source : String) (read : Reader := Yaml.read) :
    Except Failure (List Manifest) := do
  if ← Url.isPage source then return [← loadUrl web source read]
  else
    let path := Path.ofString source
    if files.isDirectory path then loadDirectory files path read else return [← loadFile files path read]

/-- The definitions of a manifest, each with the name of its source. -/
def located (m : Manifest) : Except Fault (List (String × Entries)) := do
  return (← definitions m.documents).map fun d => (m.source, d)

def loadSource (files : FileTree) (web : Web) (source : String) (read : Reader := Yaml.read) :
    Except Failure (List (String × Entries)) := do
  let found ← (← load files web source read).mapM fun m => (m.located : Except Failure _)
  return found.flatten

def loadAll (files : FileTree) (web : Web) (sources : List String) (read : Reader := Yaml.read) :
    Except Failure (List (String × Entries)) := do
  return (← sources.mapM fun source => loadSource files web source read).flatten

end Manifest

end ResourceCompiler
