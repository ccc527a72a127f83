import ResourceCompiler.Limit
import ResourceCompiler.Schema.Kind
import ResourceCompiler.Value.Text

/-!
# Errors

Each constructor is a cause with what it needs to be told, and `message` words it. `Failure` joins the
errors that have a message with the faults of unguarded data.
-/

namespace ResourceCompiler

/-- A text between single quotes, as it is. -/
def inQuotes (s : String) : String := "'" ++ s ++ "'"

/-- Why the system refuses to read or write a file. -/
inductive FileError where
  | noSuchFile (path : String)
  | occupied (path : String)
  | notDirectory (path : String)
  | isDirectory (path : String)
deriving DecidableEq

namespace FileError

def message : FileError → String
  | .noSuchFile p => "[Errno 2] No such file or directory: " ++ Text.apostrophes p
  | .occupied p => "[Errno 17] File exists: " ++ Text.apostrophes p
  | .notDirectory p => "[Errno 20] Not a directory: " ++ Text.apostrophes p
  | .isDirectory p => "[Errno 21] Is a directory: " ++ Text.apostrophes p

end FileError

/-- Why a schema or a manifest cannot be compiled. -/
inductive ShapeError where
  | notMapping (value : Value)
  | unknownType (type : Scalar)
  | notPrimitive (kind : Kind)
  | unknownFormat (format : Scalar) (kind : Kind)
  | unfitEnumValue (token : Value) (primitive : Primitive)
  | nullEnumValue
  | emptyEnum
  | noGroupOrKind
  | noVersions
  | notEmittable (typeKind : String)
  /-- A kind of schema that becomes no type. -/
  | noResolver (kind : Kind)

namespace ShapeError

def message : ShapeError → String
  | .notMapping v => "Schema fragment must be a mapping, got " ++ v.typeName
  | .unknownType t => "Unsupported schema type " ++ inQuotes t.text
  | .notPrimitive k => inQuotes k.name ++ " is not a primitive kind"
  | .unknownFormat f k => "Unsupported format " ++ inQuotes f.text ++ " for type " ++ inQuotes k.name
  | .unfitEnumValue v p => "Enum value " ++ v.quoted ++ " is not a valid " ++ p.name
  | .nullEnumValue => "Enum lists null but the schema is not nullable"
  | .emptyEnum => "Enum has no values"
  | .noGroupOrKind => "CustomResourceDefinition requires spec.group and spec.names.kind"
  | .noVersions => "CustomResourceDefinition declares no versions"
  | .notEmittable k => inQuotes k ++ " descriptors are not emittable"
  | .noResolver k => "No resolver for schema kind " ++ inQuotes k.name

/-- Whether the values in the message can be written. -/
def hasText : ShapeError → Bool
  | .unknownType s | .unknownFormat s _ => s.hasText
  | .unfitEnumValue v _ => v.hasText
  | _ => true

end ShapeError

inductive ConfigError where
  | notMapping (option : String) (value : Value)
  | invalidTypeName (name : Value)
  | invalidPackage (group : Scalar) (package : Value)
  | invalidDepth (value : Value)
  | fileNotFound (path : String)
  | notJsonFile (path : String)
  | malformedFile (path : String)
  | unreadableFile (path : String) (cause : FileError)
  | notObject (path : String)
  | unwritableFile (path : String) (cause : FileError)

namespace ConfigError

def message : ConfigError → String
  | .notMapping option v => option ++ " must be a mapping, got " ++ v.typeName
  | .invalidTypeName n => "Invalid qualified type name in existing_java_types: " ++ n.quoted
  | .invalidPackage g p => "Invalid package override for group " ++ g.quoted ++ ": " ++ p.quoted
  | .invalidDepth v => "max_depth must be a positive integer: " ++ v.quoted
  | .fileNotFound p => "Configuration file not found: " ++ p
  | .notJsonFile p => "Configuration file must be JSON: " ++ p
  | .malformedFile p => "Invalid JSON in configuration file " ++ p
  | .unreadableFile p e => "Failed to load configuration file " ++ p ++ ": " ++ e.message
  | .notObject p => "Configuration file must contain a JSON object: " ++ p
  | .unwritableFile p e => "Failed to save configuration to " ++ p ++ ": " ++ e.message

end ConfigError

/-- Why a template does not render. -/
inductive RenderError where
  | unknownTemplate (name : String)
  /-- No file of the template directory has the name. -/
  | unknownFile (name : String)
  | unknownVariable (name : String)
  | unknownMember (owner member : String)
  | unknownFilter (name : String)
  | malformedTemplate
  /-- What an engine says in its own words. -/
  | other (message : String)
deriving DecidableEq

namespace RenderError

def message : RenderError → String
  | .unknownTemplate name => name
  | .unknownFile name => Text.apostrophes name ++ " not found"
  | .unknownVariable name => inQuotes name ++ " is undefined"
  | .unknownMember owner member => inQuotes owner ++ " has no attribute " ++ inQuotes member
  | .unknownFilter name => "No filter named " ++ inQuotes name ++ "."
  | .malformedTemplate => "unexpected template text"
  | .other message => message

end RenderError

inductive TemplateError where
  | failedTemplate (name : String) (cause : RenderError)
  | failedString (cause : RenderError)
  | notUnit (typeKind : String)
  | other (message : String)

namespace TemplateError

def message : TemplateError → String
  | .failedTemplate name e => "Failed to render template " ++ name ++ ": " ++ e.message
  | .failedString e => "Failed to render template string: " ++ e.message
  | .notUnit k => "Cannot render " ++ inQuotes k ++ " as a compilation unit"
  | .other message => message

end TemplateError

inductive RegistryError where
  | notGenerator
  | aliasTaken (name : String)
  | unknownLanguage (language : String) (available : List String)
  | invalidConfig (value : Value)

namespace RegistryError

def message : RegistryError → String
  | .notGenerator => "Generator class must inherit from CodeGenerator"
  | .aliasTaken name => "Alias " ++ inQuotes name ++ " conflicts with a registered language"
  | .unknownLanguage language available =>
    "No generator registered for language: " ++ language ++ ". Available: " ++
      Text.join ", " available
  | .invalidConfig v => "Invalid config type: " ++ v.typeName

end RegistryError

/-- The errors of compiling and rendering. `path` is where in the schema; null when nobody knows. -/
inductive GeneratorError where
  | duplicateField (identifier : String) (names : List Scalar) (path : Value)
  | duplicateConstant (identifier : String) (tokens : List String) (path : Value)
  /-- Two properties, or when `names` is empty two artifacts, generate one type. -/
  | duplicateType (name : String) (names : List Scalar) (path : Value)
  | shape (cause : ShapeError) (path : Value)
  | tooDeep (limit : Limit) (path : Value)
  | config (cause : ConfigError)
  | template (cause : TemplateError) (path : Value)
  | registry (cause : RegistryError)

namespace GeneratorError

def path : GeneratorError → Value
  | .duplicateField _ _ p | .duplicateConstant _ _ p | .duplicateType _ _ p => p
  | .shape _ p | .tooDeep _ p | .template _ p => p
  | .config _ | .registry _ => .null

def quotedNames (names : List String) : String :=
  Text.join ", " (names.map inQuotes)

/-- What happened, without the place. -/
def statement : GeneratorError → String
  | .duplicateField identifier names _ =>
    "Properties " ++ quotedNames (names.map Scalar.text) ++ " all map to field " ++
      inQuotes identifier ++ " and cannot be reduced to a single non-deprecated field"
  | .duplicateConstant identifier tokens _ =>
    "Enum values " ++ quotedNames tokens ++ " all map to constant " ++ inQuotes identifier
  | .duplicateType name names _ =>
    if names.isEmpty then "Type " ++ inQuotes name ++ " is generated more than once"
    else
      "Properties " ++ quotedNames (names.map Scalar.text) ++ " all generate type " ++ inQuotes name
  | .shape cause _ => cause.message
  | .tooDeep limit _ =>
    "Schema nesting exceeds " ++ limit.toScalar.text ++ " levels; cyclic schema suspected"
  | .config cause => cause.message
  | .template cause _ => cause.message
  | .registry cause => cause.message

/-- The statement followed by the place, when it is known. -/
def message (e : GeneratorError) : String :=
  if e.path.truthy then e.statement ++ " (at " ++ e.path.text ++ ")" else e.statement

end GeneratorError

inductive LoadError where
  | malformed (source : String)
  | unreadable (path : String) (cause : FileError)
  | invalidUrl (url : String)
  | timeout (url : String)
  | connection (url : String)
  | status (code : Int) (url : String)
  | request (url cause : String)

namespace LoadError

def message : LoadError → String
  | .malformed source => "Invalid YAML in " ++ source
  | .unreadable p e => "Error reading file " ++ p ++ ": " ++ e.message
  | .invalidUrl url => "Invalid URL: " ++ url
  | .timeout url => "Request timeout for URL: " ++ url
  | .connection url => "Connection error for URL: " ++ url
  | .status code url => "HTTP error " ++ Text.ofInt code ++ " for URL: " ++ url
  | .request url cause => "Request error for URL " ++ url ++ ": " ++ cause

end LoadError

/-- Why a command-line run is given up. -/
inductive CommandError where
  | noResources
  | generation (message : String)
  | unwritable (path : String) (cause : FileError)

namespace CommandError

def message : CommandError → String
  | .noResources => "No CustomResourceDefinition found in the given sources"
  | .generation message => message
  | .unwritable p e => "Failed to write " ++ p ++ ": " ++ e.message

end CommandError

inductive Failure where
  | generator (e : GeneratorError)
  | load (e : LoadError)
  | command (e : CommandError)
  | fileNotFound (path : String)
  | fault (f : Fault)

namespace Failure

/-- The message of a failure; a fault has none. -/
def message? : Failure → Option String
  | .generator e => some e.message
  | .load e => some e.message
  | .command e => some e.message
  | .fileNotFound path => some ("File not found: " ++ path)
  | .fault _ => none

end Failure

instance : MonadLift (Except Fault) (Except Failure) where
  monadLift x := x.mapError .fault

/-- An error whose message cannot be written is a fault. -/
def failShape {α : Type} (cause : ShapeError) (path : Value) : Except Failure α :=
  if cause.hasText then .error (.generator (.shape cause path)) else .error (.fault .malformedNumber)

def failConfig {α : Type} (cause : ConfigError) : Except Failure α :=
  .error (.generator (.config cause))

end ResourceCompiler
