import ResourceCompiler.Value

/-!
# Definitions in manifests

A manifest is any data. The resource definitions in it are the mappings of their kind, at the top or among
the items of a list, however deep; everything else is passed over.

Data is a finite tree of mappings, lists and scalars. Binary scalars, sets and nodes that contain themselves, which
the notation of manifests has as well, are outside of it.
-/

namespace ResourceCompiler.Manifest

def definitionKind : String := "CustomResourceDefinition"

/-- What the kinds of lists end in. -/
def listSuffix : String := "List"

/-- Whether a kind is that of a list. -/
def isListKind (kind : Value) : Except Fault Bool :=
  -- a kind that counts as false need not be a text
  if !kind.truthy then .ok false
  else
    match kind with
    | .str s => .ok (listSuffix.toList.isSuffixOf s.toList)
    | _ => .error .notText

mutual

/-- The definitions in a document, in order. -/
def definitionsIn : Value → Except Fault (List Entries)
  | .map entries =>
    let kind := Entries.get entries "kind"
    if kind.equalsScalar (.str definitionKind) then .ok [entries]
    else do
      if ← isListKind kind then definitionsInItems entries else return []
  | _ => .ok []

/-- The definitions among the items that stand in these entries. -/
def definitionsInItems : List (Scalar × Value) → Except Fault (List Entries)
  | [] => .ok []
  | (k, v) :: rest =>
    if k.same (.str "items") then definitionsInElements v else definitionsInItems rest

/-- The definitions among the elements of a value; texts and mappings have none. -/
def definitionsInElements : Value → Except Fault (List Entries)
  | .list xs => definitions xs
  | .map _ => .ok []
  | .scalar s =>
    match s with
    | .str _ => .ok []
    | s => if s.truthy then .error .notIterable else .ok []

def definitions : List Value → Except Fault (List Entries)
  | [] => .ok []
  | v :: vs => do
    let first ← definitionsIn v
    return first ++ (← definitions vs)

end

end ResourceCompiler.Manifest
