import ResourceCompiler.Compilation
import ResourceCompiler.Config
import ResourceCompiler.Java.Literal
import ResourceCompiler.Java.Template
import ResourceCompiler.Json.Printer
import ResourceCompiler.Naming
import ResourceCompiler.Template.Store

/-!
# Compilation units

A class as the values of its template: its fields with their annotations and initializers, and the
enums declared inside it as text.
-/

namespace ResourceCompiler.Java

def annotationPackage : String := "io.fabric8.generator.annotation."

def modelPackage : String := "io.fabric8.kubernetes.model.annotation."

open ClassTemplate (jackson)

/-- The name under which generated classes say who made them. -/
def generatorName : String := "crd_codegen"

/-- The files of the template directory. -/
def templateFiles : List (String × Template.Source) :=
  templates.map fun (name, template) => (name, .parts template)

def store : TemplateStore := .directory templateFiles

/-- A value as a literal inside an annotation. -/
def quoted (v : Value) : Except Fault String := Json.write Json.inline v

/-- An annotation with one argument. -/
def annotate (name argument : String) : String := "@" ++ name ++ "(" ++ argument ++ ")"

/-- The annotation of a bound or a pattern, when the schema has one. -/
def annotateBound (name : String) (write : Value → Except Fault String) (v : Value) :
    Except Fault (List String) := do
  if v.isNull then return [] else return [annotate (annotationPackage ++ name) (← write v)]

def boundAnnotations (t : Descriptor) : Except Fault (List String) := do
  match t with
  | .primitive p =>
    let low ← annotateBound "Min" number p.minimum
    let high ← annotateBound "Max" number p.maximum
    let pattern ← annotateBound "Pattern" quoted p.pattern
    return low ++ high ++ pattern
  | _ => return []

def fieldAnnotations (f : Field Descriptor) : Except Fault (List String) := do
  let deprecated := if f.deprecated then ["@java.lang.Deprecated"] else []
  let required := if f.required then ["@" ++ annotationPackage ++ "Required"] else []
  let bounds ← boundAnnotations f.type
  let name := annotate (jackson ++ "JsonProperty") (← quoted (.scalar f.rawName))
  let description ←
    if f.description.truthy then
      pure [annotate (jackson ++ "JsonPropertyDescription") (← quoted f.description)]
    else pure []
  let nullable := if f.nullable.truthy then ["@" ++ annotationPackage ++ "Nullable"] else []
  let nulls := if f.nullable.truthy then "SET" else "SKIP"
  let setter := annotate (jackson ++ "JsonSetter") ("nulls = " ++ jackson ++ "Nulls." ++ nulls)
  return deprecated ++ required ++ bounds ++ [name] ++ description ++ nullable ++ [setter]

/-- The initializer of a field with a default that can be expressed. -/
def initializer (f : Field Descriptor) : Except Fault (Option String) :=
  match f.default? with
  | none => .ok none
  | some v => defaultInitializer f.type v

def textOrNull (s? : Option String) : Value := (s?.map Value.str).getD .null

def texts (ss : List String) : Value := .list (ss.map .str)

/-- A mapping with texts as keys. -/
def record (entries : List (String × Value)) : Value :=
  .map (entries.map fun (k, v) => (.str k, v))

/-- A description where comments are asked for. -/
def comment (config : Config) (v : Value) : Value :=
  if config.addComments.truthy then v else .null

def accessor (kind : String) (identifier : String) : String :=
  kind ++ String.ofList (Naming.capitalize identifier.toList)

/-- What a catch-all field holds under each key. -/
def valueTypeName : Descriptor → Value
  | .map _ v => .str v.name
  | _ => .null

def fieldRecord (config : Config) (f : Field Descriptor) : Except Fault Value := do
  let init ← initializer f
  let annotations ← fieldAnnotations f
  let valueType := if f.catchAll then [("value_type", valueTypeName f.type)] else []
  return record ([
    ("identifier", .str f.identifier),
    ("type", .str f.type.name),
    ("getter", .str (accessor "get" f.identifier)),
    ("setter", .str (accessor "set" f.identifier)),
    ("additional_properties", .bool f.catchAll),
    ("description", comment config f.description),
    ("initializer", textOrNull init),
    ("annotations", texts annotations)] ++ valueType)

/-- The name of a constant in data. -/
def dataName : Scalar → String
  | .bool b => boolText b
  | s => s.text

def entryRecord (e : EnumEntry) : Except Fault Value := do
  let _ ← e.value.toText
  return record [("identifier", .str e.identifier), ("literal", .str e.literal),
    ("json_name", .str (dataName e.value))]

/-- The declaration of an enum, without newlines at its end. -/
def renderEnum (config : Config) (e : EnumType) : Except Failure String := do
  let entries ← e.entries.mapM fun k => entryRecord k
  let text ← store.render "enum.java.j2" [
    ("enum_name", .str e.simpleName),
    ("backing", .str e.backing.name),
    ("description", comment config e.description),
    ("entries", .list entries)]
  return String.ofList (Text.trimRight (· = '\n') text.toList)

/-- An annotation that a resource has only for a name that counts as true. -/
def annotateName (name : String) (v : Value) : Except Fault (List String) := do
  if v.truthy then return [annotate (modelPackage ++ name) (← quoted v)] else return []

def resourceAnnotations (info : ResourceInfo) : Except Fault (List String) := do
  let version := "value = " ++ (← quoted info.version) ++ ", storage = " ++ boolText info.storage.truthy ++
    ", served = " ++ boolText info.served.truthy
  let group ← quoted info.group
  let singular ← annotateName "Singular" info.singular
  let plural ← annotateName "Plural" info.plural
  return [annotate (modelPackage ++ "Version") version, annotate (modelPackage ++ "Group") group] ++
    singular ++ plural

/-- What a unit says about its class: annotations, base class and interfaces. -/
def classHeader (t : Descriptor) : Except Fault (List (String × Value)) := do
  match t with
  | .resource r =>
    return [("class_annotations", texts (← resourceAnnotations r.info)), ("extends", .str r.baseType),
      ("implements", texts r.interfaces)]
  | _ =>
    return [("class_annotations", .list []), ("extends", .null),
      ("implements", texts ["io.fabric8.kubernetes.api.model.KubernetesResource"])]

/-- The unit of a class, with the enums that the compilation declares inside it. -/
def renderUnit (config : Config) (t : Descriptor) (c : Compilation) : Except Failure String := do
  if !t.isUnit then .error (.generator (.template (.notUnit t.kindName) (.str t.name)))
  else
    let enums ← (c.innerOf t.name).mapM (renderEnum config)
    let fields ← t.fields.mapM fun f => fieldRecord config f
    let names := (t.fields.filter (!·.catchAll)).map fun f => Value.scalar f.rawName
    let header ← classHeader t
    store.render "class.java.j2" ([
      ("package", .str (Text.join "." t.package)),
      ("class_name", .str t.simpleName),
      ("description", comment config t.description),
      ("property_order", .list names),
      ("generated", config.generatedAnnotations),
      ("generator_name", .str generatorName),
      ("fields", .list fields),
      ("inner_enums", texts enums)] ++ header)

/-- What a reader of the classes should know: empty classes, deprecated fields, lost defaults. -/
def warnings (c : Compilation) : Except Fault (List String) := do
  let shapes := c.topLevel.flatMap fun t =>
    let empty := match t with
      | .object o => if o.fields.isEmpty then ["Class " ++ inQuotes o.name ++ " has no fields"] else []
      | _ => []
    let deprecated := (t.fields.filter (·.deprecated)).map fun f =>
      "Field " ++ t.name ++ "." ++ f.identifier ++ " is deprecated"
    empty ++ deprecated
  let lost ← c.topLevel.mapM fun t => do
    let lost ← t.fields.filterM fun f => return f.default?.isSome && (← initializer f).isNone
    return lost.map fun f =>
      "Default of " ++ t.name ++ "." ++ f.identifier ++
        " cannot be expressed as a Java initializer and is ignored"
  return shapes ++ lost.flatten

end ResourceCompiler.Java
