import ResourceCompiler.Error
import ResourceCompiler.Text.Word

/-!
# Configurations

The settings of a compilation. `Config.ofOptions` builds one from options under their field names and
refuses mappings that are none, type names and packages that are no qualified names, and nesting
limits below one. The switches keep whatever value they are given.
-/

namespace ResourceCompiler

structure Config where
  /-- Existing types that stand for classes, by the qualified name of the class. -/
  existingTypes : List (String × String) := []
  preservesUnknown : Value := .bool false
  enumUppercase : Value := .bool true
  /-- Packages by API group. -/
  packageOverrides : List (Scalar × String) := []
  maxDepth : Limit := .levels 64
  generatedAnnotations : Value := .bool true
  addComments : Value := .bool true
  indentSize : Value := .int 4
  /-- Everything that is no setting. -/
  custom : Entries := []

namespace QualifiedName

def isStart (c : Char) : Bool := c.isAlpha || c = '_' || c = '$'

def isPart (c : Char) : Bool := Text.isWord c || c = '$'

/-- The rest after an opening angle bracket: something on one line, closed at the end. -/
def closes (cs : List Char) : Bool :=
  match cs.reverse with
  | '>' :: body => !body.isEmpty && !body.contains '\n'
  | '\n' :: '>' :: body => !body.isEmpty && !body.contains '\n'
  | _ => false

/-- The rest of a name after the first character of a segment. A line break may end it. -/
def continues : List Char → Bool
  | [] => true
  | ['\n'] => true
  | '.' :: c :: cs => isStart c && continues cs
  | '<' :: cs => closes cs
  | c :: cs => isPart c && continues cs

/-- Whether a text is a dotted name with optional type arguments. -/
def isValid : List Char → Bool
  | [] => false
  | c :: cs => isStart c && continues cs

/-- The text of a value that is a qualified name. -/
def ofValue? : Value → Option String
  | .str s => if isValid s.toList then some s else none
  | _ => none

end QualifiedName

namespace Config

/-- The names of the settings, in order. -/
def fieldNames : List String :=
  ["existing_java_types", "preserve_unknown_fields", "enum_uppercase", "package_overrides", "max_depth",
   "generated_annotations", "add_comments", "indent_size", "custom"]

/-- Other spellings of settings. -/
def aliases : List (String × String) :=
  [("existingJavaTypes", "existing_java_types"),
   ("preserveUnknownFields", "preserve_unknown_fields"),
   ("alwaysPreserveUnknownFields", "preserve_unknown_fields"),
   ("enumUppercase", "enum_uppercase"),
   ("uppercaseEnums", "enum_uppercase"),
   ("generatedAnnotations", "generated_annotations"),
   ("packageOverrides", "package_overrides"),
   ("maxDepth", "max_depth"),
   ("addComments", "add_comments"),
   ("indentSize", "indent_size")]

/-- The name of a setting that a key spells; other keys stay as they are. -/
def canonicalKey : Scalar → Scalar
  | .str s => .str ((aliases.lookup s).getD s)
  | k => k

/-- Options under the names of their settings; the last spelling of a setting wins. -/
def normalize (options : Entries) : Entries :=
  Entries.merge [] (options.map fun (k, v) => (canonicalKey k, v))

def isField (key : Scalar) : Bool :=
  match key with
  | .str s => fieldNames.contains s
  | _ => false

/-- The mapping that an option holds. -/
def mappingOption (options : Entries) (name : String) : Except Failure Entries :=
  match options.find? (.str name) with
  | none => .ok []
  | some (.map es) => .ok es
  | some v => failConfig (.notMapping name v)

def typeNames (es : Entries) : Except Failure (List (String × String)) :=
  es.mapM fun (source, target) =>
    match QualifiedName.ofValue? (.scalar source), QualifiedName.ofValue? target with
    | some s, some t => .ok (s, t)
    | none, _ => failConfig (.invalidTypeName (.scalar source))
    | some _, none => failConfig (.invalidTypeName target)

def packages (es : Entries) : Except Failure (List (Scalar × String)) :=
  es.mapM fun (group, package) =>
    match QualifiedName.ofValue? package with
    | some p => .ok (group, p)
    | none => failConfig (.invalidPackage group package)

/-- A limit of at least one level. -/
def depthLimit (v : Value) : Except Failure Limit :=
  match v with
  | .int n => if n < 1 then failConfig (.invalidDepth v) else .ok (.levels n)
  | .bool true => .ok (.flag true)
  | _ => failConfig (.invalidDepth v)

/-- The configuration of options under their field names; others have their defaults. -/
def ofOptions (options : Entries) : Except Failure Config := do
  if options.any fun (k, _) => !isField k then
    throw (.fault .unknownOption)
  let existing ← mappingOption options "existing_java_types"
  let overrides ← mappingOption options "package_overrides"
  let custom ← mappingOption options "custom"
  let existingTypes ← typeNames existing
  let packageOverrides ← packages overrides
  let maxDepth ← depthLimit ((options.find? (.str "max_depth")).getD (.int 64))
  let switch (name : String) (standard : Value) := (options.find? (.str name)).getD standard
  return {
    existingTypes, packageOverrides, maxDepth, custom
    preservesUnknown := switch "preserve_unknown_fields" (.bool false)
    enumUppercase := switch "enum_uppercase" (.bool true)
    generatedAnnotations := switch "generated_annotations" (.bool true)
    addComments := switch "add_comments" (.bool true)
    indentSize := switch "indent_size" (.int 4) }

def textEntries (pairs : List (String × String)) : Entries :=
  pairs.map fun (k, v) => (.str k, .str v)

def packageEntries (pairs : List (Scalar × String)) : Entries :=
  pairs.map fun (k, v) => (k, .str v)

/-- The settings as options, in the order of their names. -/
def toOptions (c : Config) : Entries :=
  [(.str "existing_java_types", .map (textEntries c.existingTypes)),
   (.str "preserve_unknown_fields", c.preservesUnknown),
   (.str "enum_uppercase", c.enumUppercase),
   (.str "package_overrides", .map (packageEntries c.packageOverrides)),
   (.str "max_depth", .scalar c.maxDepth.toScalar),
   (.str "generated_annotations", c.generatedAnnotations),
   (.str "add_comments", c.addComments),
   (.str "indent_size", c.indentSize),
   (.str "custom", .map c.custom)]

/-- The configuration with some settings replaced, checked anew. -/
def withOverrides (c : Config) (changes : Entries) : Except Failure Config :=
  ofOptions (Entries.merge c.toOptions changes)

/-- The type that stands for a class, when one is configured. -/
def existingType? (c : Config) (className : String) : Option String :=
  c.existingTypes.lookup className

/-- The package of an API group, when one is configured. -/
def packageOverride? (c : Config) (group : Scalar) : Option String :=
  (c.packageOverrides.find? fun e => e.1.same group).map (·.2)

end Config

end ResourceCompiler
