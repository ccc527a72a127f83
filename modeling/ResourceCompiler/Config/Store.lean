import ResourceCompiler.Config
import ResourceCompiler.FileTree
import ResourceCompiler.Json.Printer
import ResourceCompiler.Json.Reader

/-!
# Configuration files

`Config.load` merges the defaults of a language, a file and explicit options, each overriding those
before it; keys that name no setting end up in the custom mapping. `Config.save` writes the settings
under their usual spellings, with the custom entries after them.
-/

namespace ResourceCompiler.Config

/-- The languages with defaults, and the defaults. -/
def defaults : List (String × Entries) :=
  [("java", [(.str "enum_uppercase", .bool true), (.str "generated_annotations", .bool true),
    (.str "add_comments", .bool true), (.str "indent_size", .int 4)])]

def languages : List String := defaults.map (·.1)

def defaultsOf (language : Value) : Except Fault Entries := do
  match ← language.key with
  | .str name => return (defaults.lookup name).getD []
  | _ => return []

def readOptions (files : FileTree) (path : Path) : Except Failure Entries := do
  if !files.contains path then failConfig (.fileNotFound path.text)
  else if path.lowerSuffix ≠ ".json" then failConfig (.notJsonFile path.text)
  else
    match files.read path with
    | .error e => failConfig (.unreadableFile path.text e)
    | .ok text =>
      match Json.read text with
      | .error .malformed => failConfig (.malformedFile path.text)
      | .error .tooManyDigits => throw (.fault .malformedNumber)
      | .ok (.map es) => return es
      | .ok _ => failConfig (.notObject path.text)

/-- Two elements as a key and its value. -/
def pairOf (v : Value) : Except Fault (Scalar × Value) := do
  match v.elements with
  | .ok [k, x] => return (← k.key, x)
  | .ok _ => throw .malformedPair
  | .error f => throw f

/-- A mapping made of a mapping or of a list of pairs. -/
def toMapping : Value → Except Fault Entries
  | .map es => .ok es
  | v => do return Entries.merge [] (← (← v.elements).mapM pairOf)

/-- The configuration of options whose keys may name no setting. -/
def ofMixed (options : Entries) : Except Failure Config := do
  let (settings, others) := options.partition fun (k, _) => isField k
  if others.isEmpty then ofOptions settings
  else
    let custom ← toMapping ((Entries.find? settings (.str "custom")).getD (.map []))
    ofOptions (Entries.insert settings (.str "custom") (.map (Entries.merge custom others)))

/-- The path that a value gives; one that counts as false gives none. -/
def pathOf? (v : Value) : Except Fault (Option Path) :=
  if !v.truthy then .ok none
  else
    match v with
    | .str s => .ok (some (.ofString s))
    | _ => .error .notPath

/-- Defaults, file and explicit options merged. -/
def load (files : FileTree) (language custom file : Value) : Except Failure Config := do
  let base ← defaultsOf language
  let fromFile ← match ← pathOf? file with
    | some path => (readOptions files path).map normalize
    | none => pure []
  let explicit ← custom.entriesOrNone
  -- the defaults have no second spellings, so that they need not be normalized
  ofMixed (Entries.merge (Entries.merge base fromFile) (normalize explicit))

/-- The settings as they stand in a file. -/
def fileEntries (c : Config) : Entries :=
  Entries.merge
    [(.str "existingJavaTypes", .map (textEntries c.existingTypes)),
     (.str "preserveUnknownFields", c.preservesUnknown),
     (.str "enumUppercase", c.enumUppercase),
     (.str "packageOverrides", .map (packageEntries c.packageOverrides)),
     (.str "maxDepth", .scalar c.maxDepth.toScalar),
     (.str "generatedAnnotations", c.generatedAnnotations),
     (.str "addComments", c.addComments),
     (.str "indentSize", c.indentSize)]
    c.custom

def save (c : Config) (files : FileTree) (path : Path) : Except Failure FileTree := do
  let text ← Json.write Json.indented (.map c.fileEntries)
  match files.write path text with
  | .ok files => return files
  | .error e => failConfig (.unwritableFile path.text e)

end ResourceCompiler.Config
