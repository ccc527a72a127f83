import ResourceCompiler.Yaml.Node.Reader

/-!
# Documents

A text holds any number of documents, of which the first may stand without a mark in front of it. Each is
read completely before the next one is looked at.
-/

namespace ResourceCompiler.Yaml

namespace Reading

/-- The handles that directives declare in front of a document. -/
def readDirectives (fuel : Nat) (version : Bool) (handles : Handles) : Reading Handles :=
  match fuel with
  | 0 => throw .malformed
  | n + 1 => do
    match ← peek with
    | some (.directive (.version major _)) =>
      if version || major ≠ 1 then throw .malformed
      advance
      readDirectives n true handles
    | some (.directive (.handle name expansion)) =>
      if handles.any (·.1 = name) then throw .malformed
      advance
      readDirectives n version (handles ++ [(name, expansion)])
    | some (.directive .other) =>
      advance
      readDirectives n version handles
    | _ => return handles ++ standardHandles

/-- The content of a document, which may be missing. -/
def readContentOf (handles : Handles) : Reading Node := do
  if ((← peek).all Token.endsDocument) then return .empty else readDocumentNode handles

/-- A document with its mark in front of it. -/
def readMarked : Reading Node := do
  let handles ← readDirectives ((← get).tokens.length + 1) false []
  match ← peek with
  | some .documentStart =>
    advance
    readContentOf handles
  | _ => unexpected

/-- The end of a document; an error in the next token counts as one of this document. -/
def finishDocument : Reading Unit := do
  match ← peek with
  | some (.failed e) => throw e
  | some .documentEnd => advance
  | _ => return

/-- One document from the tokens, and what is left of them. -/
def readDocument (marked : Bool) (tokens : List Token) : Except ReadError (Node × List Token) := do
  let read : Reading Node := do
    let node ← if marked then readMarked else readDocumentNode standardHandles
    finishDocument
    return node
  let (node, s) ← read.run { tokens }
  return (node, s.tokens)

end Reading

/-- Whether the text's first document stands without a mark. -/
def startsUnmarked : List Token → Bool
  | [] => false
  | t :: _ =>
    match t with
    | .directive _ | .documentStart => false
    | _ => true

def isDocumentEnd : Token → Bool
  | .documentEnd => true
  | _ => false

/-- The data of the documents that tokens spell; each document takes a token. -/
def documentsOf (fuel : Nat) (first : Bool) (tokens : List Token) : Except ReadError (List Value) :=
  let unmarked := first && startsUnmarked tokens
  let tokens := if unmarked then tokens else tokens.dropWhile isDocumentEnd
  match fuel, tokens with
  | 0, _ => .error .malformed
  | _, [] => .ok []
  | n + 1, tokens => do
    let (node, rest) ← Reading.readDocument (!unmarked) tokens
    let v ← node.toValue
    return v :: (← documentsOf n false rest)

/-- The data of all documents of a text. -/
def read (text : String) : Except ReadError (List Value) :=
  let tokens := Token.ofChars text.toList
  documentsOf (tokens.length + 1) true tokens

end ResourceCompiler.Yaml
