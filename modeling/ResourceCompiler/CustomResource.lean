import ResourceCompiler.Compilation
import ResourceCompiler.Resolver
import ResourceCompiler.Schema.Reader

/-!
# Custom resources

`Resolver.assemble` wraps the classes of a spec and a status into a resource, `compileDefinition` does
so for every version of a definition. A version without a schema of its own has the shared one, and a
definition without a list of versions may name a single one.
-/

namespace ResourceCompiler

/-- The scope that adds the marker of namespaces to a resource. -/
def namespacedScope : String := "Namespaced"

namespace Resolver

/-- The type of a spec or a status below the resource, and its artifacts; the void type for none. -/
def resolvePart (r : Resolver) (node? : Option Node) (simpleName resourceName : String)
    (package : List String) (suffix part : String) : Except Failure (String × List Descriptor) := do
  match node? with
  | none => return (r.types.void, [])
  | some node =>
    let resolved ← r.resolveObject node (simpleName ++ suffix) package (resourceName ++ "." ++ part) 1
    return (resolved.type.name, resolved.artifacts)

/-- The resource of a kind, after the classes of its spec and its status. -/
def assemble (r : Resolver) (kind : String) (package : List String) (info : ResourceInfo)
    (spec status : Option Node) : Except Failure Resolution := do
  let simpleName := r.names.typeName kind
  let name := Naming.qualified package simpleName
  let (specType, specArtifacts) ← r.resolvePart spec simpleName name package "Spec" "spec"
  let (statusType, statusArtifacts) ← r.resolvePart status simpleName name package "Status" "status"
  let nested := specArtifacts ++ statusArtifacts
  let interfaces := if info.scope.equalsScalar (.str namespacedScope) then [r.types.namespaced] else []
  let type : Descriptor := .resource {
    simpleName, name, info, specType, statusType, interfaces, nested, package
    baseType := r.types.resourceOf specType statusType }
  return ⟨type, nested ++ [type]⟩

/-- What the versions of a definition have in common. -/
structure Definition where
  group : Value
  kind : Value
  scope : Value
  singular : Value
  plural : Value
  basePackage : String
  sharedSchema : Value

/-- The package configured for a group, else the one that its name gives. -/
def basePackageOf (r : Resolver) (group : Value) : Except Fault String := do
  let key ← group.key
  match r.config.packageOverride? key, key with
  | some package, _ => return package
  | none, .str g => return Naming.packageOfGroup g
  | none, _ => throw .notText

def definitionOf (r : Resolver) (document : Entries) : Except Failure (Entries × Definition) := do
  let spec ← (document.get "spec").entriesOrNone
  let names ← (Entries.get spec "names").entriesOrNone
  let group := Entries.get spec "group"
  let kind := Entries.get names "kind"
  if !group.truthy || !kind.truthy then
    let metadata ← (document.get "metadata").entriesOrNone
    failShape .noGroupOrKind (Entries.get metadata "name")
  else
    let basePackage ← r.basePackageOf group
    let validation ← (Entries.get spec "validation").entriesOrNone
    return (spec, {
      group, kind, basePackage
      scope := (Entries.find? spec (.str "scope")).getD (.str namespacedScope)
      singular := Entries.get names "singular"
      plural := Entries.get names "plural"
      sharedSchema := Entries.get validation "openAPIV3Schema" })

def versionsOf (spec : Entries) : Except Failure (List Value) := do
  let versions := Entries.get spec "versions"
  if versions.truthy then return ← versions.elements
  else
    let version := Entries.get spec "version"
    if version.truthy then
      return [.map [(.str "name", version), (.str "served", .bool true), (.str "storage", .bool true)]]
    else failShape .noVersions .null

/-- The entries of a version, with its name. -/
def versionEntries (version : Value) : Except Fault (Entries × Value) :=
  match version with
  | .map es =>
    match Entries.find? es (.str "name") with
    | some name => .ok (es, name)
    | none => .error .missingKey
  | _ => .error .notIndexable

/-- The segments of a version's package. -/
def versionPackage (r : Resolver) (d : Definition) (version : Value) : List String :=
  (Text.segments '.' (d.basePackage ++ "." ++ version.text)).map r.names.packageSegment

/-- Whether a version is stored or served, which it is when it does not say. -/
def versionFlag (es : Entries) (name : String) : Value :=
  .bool ((Entries.find? es (.str name)).getD (.bool true)).truthy

/-- The tree of a version's schema, which is the shared one where the version has none. -/
def versionRoot (r : Resolver) (d : Definition) (version : Entries) : Except Failure Node := do
  let schema ← (Entries.get version "schema").entriesOrNone
  Node.ofValue ((Entries.get schema "openAPIV3Schema").or d.sharedSchema) d.kind r.config.maxDepth

def resolveVersion (r : Resolver) (d : Definition) (version : Value) : Except Failure Resolution := do
  let (es, name) ← versionEntries version
  let root ← r.versionRoot d es
  let info : ResourceInfo := {
    group := d.group, version := name, scope := d.scope, singular := d.singular, plural := d.plural
    storage := versionFlag es "storage", served := versionFlag es "served"
    description := root.traits.description }
  r.assemble d.kind.text (r.versionPackage d name) info (root.property? "spec") (root.property? "status")

def compileVersion (r : Resolver) (d : Definition) (version : Value) :
    Except Failure Compilation := do
  Compilation.ofResolution (← r.resolveVersion d version)

/-- One compilation for each version of a definition, in order. -/
def compileDefinition (r : Resolver) (document : Value) : Except Failure (List Compilation) := do
  let (spec, d) ← r.definitionOf (← document.entries)
  (← versionsOf spec).mapM (r.compileVersion d)

end Resolver

end ResourceCompiler
