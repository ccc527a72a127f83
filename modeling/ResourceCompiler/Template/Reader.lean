import ResourceCompiler.FileTree
import ResourceCompiler.Json.Reader
import ResourceCompiler.Template

/-!
# Reading templates

Values stand between double braces, conditions between a brace and a percent sign. The newline after
a condition's tag is dropped, and so are blanks before the tag at the start of a line.
-/

namespace ResourceCompiler.Template

/-- A piece of a template's text. -/
inductive Piece where
  | text (cs : List Char)
  | value (inside : List Char)
  | tag (inside : List Char)

/-- The text before two closing characters, and what follows them. -/
def untilPair? (a b : Char) : List Char → Option (List Char × List Char)
  | [] | [_] => none
  | c :: d :: cs =>
    if c = a ∧ d = b then some ([], cs)
    else (untilPair? a b (d :: cs)).map fun (before, after) => (c :: before, after)

/-- The pieces of a text; `fuel` bounds their number. -/
def pieces? (fuel : Nat) (before cs : List Char) : Option (List Piece) :=
  match fuel, cs with
  | 0, _ => none
  | _, [] => some [.text before.reverse]
  | n + 1, '\x7b' :: '\x7b' :: cs => do
    let (inside, rest) ← untilPair? '\x7d' '\x7d' cs
    return .text before.reverse :: .value inside :: (← pieces? n [] rest)
  | n + 1, '\x7b' :: '%' :: cs => do
    let (inside, rest) ← untilPair? '%' '\x7d' cs
    return .text before.reverse :: .tag inside :: (← pieces? n [] rest)
  | n + 1, c :: cs => pieces? n (c :: before) cs

/-- Drops blanks after the last newline, or all of a text of blanks that starts a line. -/
def dropIndent (startsLine : Bool) (cs : List Char) : List Char :=
  let tail := (cs.reverse.takeWhile (· ≠ '\n')).reverse
  let head := cs.take (cs.length - tail.length)
  if (!head.isEmpty || startsLine) && tail.all Text.isBlank then head else cs

def dropNewline : List Char → List Char × Bool
  | '\n' :: cs => (cs, true)
  | cs => (cs, false)

/-- Trims the texts around tags. `startsLine` tells whether the next text starts a line. -/
def trimPieces (startsLine afterTag : Bool) : List Piece → List Piece
  | [] => []
  | .text cs :: rest =>
    let (cs, dropped) := if afterTag then dropNewline cs else (cs, false)
    let cs := match rest with
      | .tag _ :: _ => dropIndent (startsLine || dropped) cs
      | _ => cs
    .text cs :: trimPieces false false rest
  | .value inside :: rest => .value inside :: trimPieces false false rest
  | .tag inside :: rest => .tag inside :: trimPieces false true rest

def isName (cs : List Char) : Bool :=
  match cs with
  | [] => false
  | c :: rest => (c.isAlpha || c = '_') && rest.all fun d => d.isAlphanum || d = '_'

def Filter.ofCall? (name : String) (args : List Int) : Except RenderError Filter :=
  match name, args with
  | "string_literal", [] => .ok .quote
  | "capitalize_first", [] => .ok .capitalizeFirst
  | "indent_lines", [] => .ok (.indentLines 4)
  | "indent_lines", [n] => .ok (.indentLines n)
  | "doc_comment", [] => .ok (.docComment 0)
  | "doc_comment", [n] => .ok (.docComment n)
  | _, _ =>
    if ["string_literal", "capitalize_first", "indent_lines", "doc_comment"].contains name then
      .ok .misapplied
    else .error (.unknownFilter name)

def readArguments? (cs : List Char) : Option (List Int) :=
  let inside := Text.trim Text.isBlank cs
  if inside.isEmpty then some []
  else (Text.splitAt (· = ',') inside).mapM fun arg =>
    Text.readInt? (String.ofList (Text.trim Text.isBlank arg))

/-- A filter's name with its arguments in parentheses. -/
def readFilter (cs : List Char) : Except RenderError Filter :=
  let cs := Text.trim Text.isBlank cs
  let (name, inside?) := Text.cut '(' cs
  let name := Text.trim Text.isBlank name
  let args? := match inside? with
    | none => some []
    | some inside =>
      match inside.reverse with
      | ')' :: body => readArguments? body.reverse
      | _ => none
  match args? with
  | some args => if isName name then Filter.ofCall? (String.ofList name) args else .error .malformedTemplate
  | none => .error .malformedTemplate

/-- A name with its members, after points. -/
def readPath (cs : List Char) : Except RenderError Expr :=
  let names := (Text.splitAt (· = '.') cs).map (Text.trim Text.isBlank)
  match names with
  | [] => .error .malformedTemplate
  | first :: rest =>
    if names.all isName then
      .ok (rest.foldl (fun e name => .member e (String.ofList name)) (.variable (String.ofList first)))
    else .error .malformedTemplate

def readExpr (cs : List Char) : Except RenderError Expr :=
  match Text.splitAt (· = '|') cs with
  | [] => .error .malformedTemplate
  | path :: filters => do
    filters.foldlM (fun e f => return .filtered e (← readFilter f)) (← readPath path)

/-- A condition that is still open: its test and the parts before it. -/
structure Frame where
  test : Expr
  before : List Part

/-- The parts of the pieces; conditions that are open wait in `frames`. -/
def partsOf (frames : List Frame) (done : List Part) : List Piece → Except RenderError (List Part)
  | [] => if frames.isEmpty then .ok done else .error .malformedTemplate
  | .text cs :: rest =>
    partsOf frames (if cs.isEmpty then done else done ++ [.text (String.ofList cs)]) rest
  | .value inside :: rest => do
    partsOf frames (done ++ [.value (← readExpr inside)]) rest
  | .tag inside :: rest => do
    let inside := Text.trim Text.isBlank inside
    if inside = "endif".toList then
      match frames with
      | f :: frames => partsOf frames (f.before ++ [.when f.test done []]) rest
      | [] => .error .malformedTemplate
    else if "if ".toList.isPrefixOf inside then
      partsOf (⟨← readExpr (inside.drop 3), done⟩ :: frames) [] rest
    else .error .malformedTemplate

def read (source : String) : Except RenderError Template :=
  let cs := FileTree.plainLines source.toList
  match pieces? (cs.length + 1) [] cs with
  | none => .error .malformedTemplate
  | some pieces => partsOf [] [] (trimPieces true false pieces)

end ResourceCompiler.Template
