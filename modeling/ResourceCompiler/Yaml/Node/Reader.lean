import ResourceCompiler.Yaml.Node
import ResourceCompiler.Yaml.Token.Lexer

/-!
# Reading nodes

The trees of the documents that a list of tokens spells. An alias stands for the node of its anchor, an
anchor is known to the end of its document, and no two nodes of a document have the same anchor.
-/

namespace ResourceCompiler.Yaml

/-- The tokens that are left, and the nodes of anchors; a node that is not complete is missing. -/
structure Progress where
  tokens : List Token
  anchors : List (String × Option Node) := []

abbrev Reading := StateT Progress (Except ReadError)

namespace Reading

def peek : Reading (Option Token) := return (← get).tokens.head?

def advance : Reading Unit := modify fun s => { s with tokens := s.tokens.drop 1 }

def nextIs (p : Token → Bool) : Reading Bool := return (← peek).any p

/-- Stops at a token that may not stand here. -/
def unexpected {α : Type} : Reading α := do
  match ← peek with
  | some (.failed e) => throw e
  | _ => throw .malformed

/-- Takes the next token if it satisfies `p`, and says whether it does. -/
def takeIf (p : Token → Bool) : Reading Bool := do
  if ← nextIs p then
    advance
    return true
  else return false

/-- A node, or the empty one when the next token shows that it is missing. -/
def orEmpty (p : Token → Bool) (read : Reading Node) : Reading Node := do
  if ← nextIs p then return .empty else read

end Reading

namespace Token

def isValue : Token → Bool
  | .value => true
  | _ => false

def isComma : Token → Bool
  | .comma => true
  | _ => false

/-- Whether an entry of a block sequence ends before the token. -/
def endsItem : Token → Bool
  | .dash | .blockEnd => true
  | _ => false

/-- Whether a key or a value of a block mapping ends before the token. -/
def endsEntry : Token → Bool
  | .key | .value | .blockEnd => true
  | _ => false

/-- Whether an entry of a sequence among the values of a mapping ends before the token. -/
def endsInnerItem : Token → Bool
  | .dash | .key | .value | .blockEnd => true
  | _ => false

/-- Whether a value inside brackets ends before the token. -/
def endsInBrackets : Token → Bool
  | .comma | .closeBracket => true
  | _ => false

def endsInBraces : Token → Bool
  | .comma | .closeBrace => true
  | _ => false

/-- Whether a document has no content before the token. -/
def endsDocument : Token → Bool
  | .directive _ | .documentStart | .documentEnd => true
  | _ => false

end Token

/-- What handles stand for. -/
abbrev Handles := List (String × String)

def standardHandles : Handles := [("!", "!"), ("!!", Tag.standardNames)]

/-- What a node may have in front of it. -/
structure Properties where
  anchor? : Option String := none
  tag? : Option RawTag := none

/-- Where a node stands: among brackets, in a block, or as a key or a value of a block mapping. -/
inductive Place where
  | flow | block | entry
deriving DecidableEq

namespace Reading

def readAnchor : Reading (Option String) := do
  match ← peek with
  | some (.anchor name) => advance; return some name
  | _ => return none

def readTag : Reading (Option RawTag) := do
  match ← peek with
  | some (.tag t) => advance; return some t
  | _ => return none

/-- An anchor and a tag in either order. -/
def readProperties : Reading Properties := do
  match ← readAnchor with
  | some name => return ⟨some name, ← readTag⟩
  | none =>
    match ← readTag with
    | some t => return ⟨← readAnchor, some t⟩
    | none => return {}

/-- The full name of a tag; the name of the tag that leaves it to the node is missing. -/
def fullName (handles : Handles) : Option RawTag → Reading (Option String)
  | none => return none
  | some ⟨none, name⟩ => return if name = "!" then none else some name
  | some ⟨some handle, suffix⟩ =>
    match handles.lookup handle with
    | some expansion => return some (expansion ++ suffix)
    | none => throw .malformed

/-- Whether a tag leaves it to the text of a scalar what it is, even between quotes. -/
def isOpenTag (t : Option RawTag) : Bool :=
  t.any fun t => t.handle?.isNone && t.suffix = "!"

/-- Notes an anchor whose node follows. -/
def openAnchor (name? : Option String) : Reading Unit := do
  match name? with
  | none => return
  | some name =>
    if (← get).anchors.any (·.1 = name) then throw .malformed
    else modify fun s => { s with anchors := (name, none) :: s.anchors }

def closeAnchor (name? : Option String) (node : Node) : Reading Unit :=
  match name? with
  | none => return
  | some name => modify fun s =>
    { s with anchors := s.anchors.map fun (k, v?) => (k, if k = name then some node else v?) }

def aliased (name : String) : Reading Node := do
  match (← get).anchors.lookup name with
  | some (some node) => return node
  | some none => throw (.fault .cyclic)
  | none => throw .malformed

def scalarTag (name? : Option String) (open? : Bool) (text : String) (plain : Bool) : Tag :=
  match name? with
  | some name => .ofName name
  | none => if plain || open? then .ofPlain text else .str

def collectionTag (name? : Option String) (standard : Tag) : Tag :=
  (name?.map Tag.ofName).getD standard

/-- The empty node, where an anchor or a tag stands for one. -/
def readMissing (properties : Properties) (name? : Option String) : Reading Node := do
  if properties.anchor?.isSome || properties.tag?.isSome then
    return .scalar (scalarTag name? true "" true) ""
  else unexpected

mutual

def readNode (handles : Handles) (fuel : Nat) (place : Place) : Reading Node :=
  match fuel with
  | 0 => throw .malformed
  | n + 1 => do
    match ← peek with
    | some (.alias name) =>
      advance
      aliased name
    | _ =>
      let properties ← readProperties
      let name? ← fullName handles properties.tag?
      openAnchor properties.anchor?
      let node ← readContent handles n place properties name?
      closeAnchor properties.anchor? node
      return node

/-- A node after its anchor and its tag. -/
def readContent (handles : Handles) (fuel : Nat) (place : Place) (properties : Properties)
    (name? : Option String) : Reading Node :=
  match fuel with
  | 0 => throw .malformed
  | n + 1 => do
    match place, ← peek with
    | .entry, some .dash => return .sequence (collectionTag name? .sequence) (← readInnerItems handles n)
    | _, some (.scalar text plain) =>
      advance
      return .scalar (scalarTag name? (isOpenTag properties.tag?) text plain) text
    | _, some .openBracket =>
      advance
      return .sequence (collectionTag name? .sequence) (← readBrackets handles n true)
    | _, some .openBrace =>
      advance
      return .mapping (collectionTag name? .mapping) (← readBraces handles n true)
    | .flow, _ => readMissing properties name?
    | _, some .sequenceStart =>
      advance
      return .sequence (collectionTag name? .sequence) (← readItems handles n)
    | _, some .mappingStart =>
      advance
      return .mapping (collectionTag name? .mapping) (← readEntries handles n)
    | _, _ => readMissing properties name?

def readItems (handles : Handles) (fuel : Nat) : Reading (List Node) :=
  match fuel with
  | 0 => throw .malformed
  | n + 1 => do
    match ← peek with
    | some .dash =>
      advance
      let x ← orEmpty Token.endsItem (readNode handles n .block)
      return x :: (← readItems handles n)
    | some .blockEnd =>
      advance
      return []
    | _ => unexpected

/-- The items of a sequence that is indented no more than the mapping it is a value of. -/
def readInnerItems (handles : Handles) (fuel : Nat) : Reading (List Node) :=
  match fuel with
  | 0 => throw .malformed
  | n + 1 => do
    match ← peek with
    | some .dash =>
      advance
      let x ← orEmpty Token.endsInnerItem (readNode handles n .block)
      return x :: (← readInnerItems handles n)
    | _ => return []

def readEntries (handles : Handles) (fuel : Nat) : Reading (List (Node × Node)) :=
  match fuel with
  | 0 => throw .malformed
  | n + 1 => do
    match ← peek with
    | some .key =>
      advance
      let k ← orEmpty Token.endsEntry (readNode handles n .entry)
      let v ← if ← takeIf Token.isValue then orEmpty Token.endsEntry (readNode handles n .entry)
        else pure .empty
      return (k, v) :: (← readEntries handles n)
    | some .blockEnd =>
      advance
      return []
    | _ => unexpected

/-- A key and its value among brackets or braces; `ends` tells what may follow them. -/
def readPair (handles : Handles) (fuel : Nat) (ends : Token → Bool) : Reading (Node × Node) :=
  match fuel with
  | 0 => throw .malformed
  | n + 1 => do
    let k ← orEmpty (fun t => t.isValue || ends t) (readNode handles n .flow)
    let v ← if ← takeIf Token.isValue then orEmpty ends (readNode handles n .flow) else pure .empty
    return (k, v)

/-- The elements up to a closing bracket. A key makes an element a mapping of one entry. -/
def readBrackets (handles : Handles) (fuel : Nat) (first : Bool) : Reading (List Node) :=
  match fuel with
  | 0 => throw .malformed
  | n + 1 => do
    if (← peek) matches some .closeBracket then
      advance
      return []
    else
      if !first then
        if !(← takeIf Token.isComma) then unexpected
      match ← peek with
      | some .key =>
        advance
        let pair ← readPair handles n Token.endsInBrackets
        return .mapping .mapping [pair] :: (← readBrackets handles n false)
      | some .closeBracket =>
        advance
        return []
      | _ =>
        let x ← readNode handles n .flow
        return x :: (← readBrackets handles n false)

/-- The entries up to a closing brace. An element without a key of its own is a key without a value. -/
def readBraces (handles : Handles) (fuel : Nat) (first : Bool) : Reading (List (Node × Node)) :=
  match fuel with
  | 0 => throw .malformed
  | n + 1 => do
    if (← peek) matches some .closeBrace then
      advance
      return []
    else
      if !first then
        if !(← takeIf Token.isComma) then unexpected
      match ← peek with
      | some .key =>
        advance
        let pair ← readPair handles n Token.endsInBraces
        return pair :: (← readBraces handles n false)
      | some .closeBrace =>
        advance
        return []
      | _ =>
        let k ← readNode handles n .flow
        return (k, .empty) :: (← readBraces handles n false)

end

/-- As many levels of calls as the tokens that are left can ask for. -/
def readDocumentNode (handles : Handles) : Reading Node := do
  readNode handles (3 * (← get).tokens.length + 3) .block

end Reading

end ResourceCompiler.Yaml
