import ResourceCompiler.Error
import ResourceCompiler.Template.Filter
import ResourceCompiler.Value.Text

/-!
# Templates

A template is a list of parts: text, values, conditions and loops. Rendering stops at the first name
that has no value, in the order of the template.
-/

namespace ResourceCompiler

namespace Template

/-- What is done to a value before it is shown. -/
inductive Filter where
  | quote
  | indentLines (spaces : Int)
  | docComment (spaces : Int)
  | capitalizeFirst
  /-- The texts of the elements with a separator between them. -/
  | join (separator : String)
  | quoteEach
  /-- A filter with arguments that it does not take. -/
  | misapplied

inductive Expr where
  | text (s : String)
  | variable (name : String)
  | member (owner : Expr) (name : String)
  | filtered (e : Expr) (f : Filter)
  | choose (test yes no : Expr)

inductive Part where
  | text (s : String)
  | value (e : Expr)
  | when (test : Expr) (yes no : List Part)
  | each (name : String) (elements : Expr) (body : List Part)

/-- What ends a rendering early. -/
inductive Stop where
  | error (e : RenderError)
  | fault (f : Fault)

instance : MonadLift (Except Fault) (Except Stop) where
  monadLift x := x.mapError .fault

/-- The values of names, the innermost first. -/
abbrev Context := List (String × Value)

/-- How a missing member names its owner. -/
def ownerName (v : Value) : String :=
  if v.isNull then v.text else v.typeName ++ " object"

def Filter.apply (f : Filter) (v : Value) : Except Fault Value :=
  match f with
  | .quote => do return .str (Text.quote (← v.toText))
  | .indentLines n => do return .str (ResourceCompiler.Filter.indentLines n (← v.toText))
  | .docComment n => do return .str (ResourceCompiler.Filter.docComment n (← v.toText))
  | .capitalizeFirst => do return .str (ResourceCompiler.Filter.capitalizeFirst (← v.toText))
  | .join separator => do return .str (Text.join separator (← (← v.elements).mapM Value.toText))
  | .quoteEach => do return .list ((← (← v.elements).mapM Value.toText).map fun x => .str (Text.quote x))
  | .misapplied => .error .wrongArguments

def Expr.eval (context : Context) : Expr → Except Stop Value
  | .text s => .ok (.str s)
  | .variable name =>
    match context.lookup name with
    | some v => .ok v
    | none => .error (.error (.unknownVariable name))
  | .member owner name => do
    let v ← owner.eval context
    let found? := match v with
      | .map es => Entries.find? es (.str name)
      | _ => none
    match found? with
    | some x => return x
    | none => .error (.error (.unknownMember (ownerName v) name))
  | .filtered e f => do
    let v ← e.eval context
    let result ← f.apply v
    return result
  | .choose test yes no => do
    if (← test.eval context).truthy then yes.eval context else no.eval context

/-- The context inside a loop, at one of its elements. -/
def loopContext (context : Context) (name : String) (element : Value) (isLast : Bool) : Context :=
  (name, element) :: ("loop", .map [(.str "last", .bool isLast)]) :: context

/-- Runs a loop body for each element, telling it the last one. -/
def forEach (body : Value → Bool → Except Stop String) : List Value → Except Stop String
  | [] => .ok ""
  | x :: xs => do
    let first ← body x xs.isEmpty
    return first ++ (← forEach body xs)

mutual

def Part.render (context : Context) : Part → Except Stop String
  | .text s => .ok s
  | .value e => do
    let text ← (← e.eval context).toText
    return text
  | .when test yes no => do
    if (← test.eval context).truthy then renderParts context yes else renderParts context no
  | .each name elements body => do
    let v ← elements.eval context
    let xs ← v.elements
    forEach (fun x isLast => renderParts (loopContext context name x isLast) body) xs

def renderParts (context : Context) : List Part → Except Stop String
  | [] => .ok ""
  | p :: ps => do
    let first ← p.render context
    return first ++ (← renderParts context ps)

end

end Template

/-- A template ready to render. -/
abbrev Template := List Template.Part

end ResourceCompiler
