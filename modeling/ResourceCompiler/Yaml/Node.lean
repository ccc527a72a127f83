import ResourceCompiler.Text.Case
import ResourceCompiler.Yaml.Number
import ResourceCompiler.Yaml.Tag

/-!
# Nodes

A document as a tree of tagged nodes, with aliases replaced by what they stand for. `Node.toValue` gives
the data of a tree. The mappings merged into a mapping come before its own entries, so that these win.
-/

namespace ResourceCompiler.Yaml

inductive Node where
  | scalar (tag : Tag) (text : String)
  | sequence (tag : Tag) (elements : List Node)
  | mapping (tag : Tag) (entries : List (Node × Node))

namespace Node

/-- The node of nothing. -/
def empty : Node := .scalar .null ""

def tag : Node → Tag
  | .scalar t _ | .sequence t _ | .mapping t _ => t

/-- Words that are truth values when a tag says so, in any case. -/
def readBool (text : String) : ScalarResult :=
  let word := Text.lower text
  if ["yes", "true", "on"].contains word then .ok (.bool true)
  else if ["no", "false", "off"].contains word then .ok (.bool false)
  else .error (.fault .missingKey)

def readTimestamp (text : String) : ScalarResult :=
  match Timestamp.read? text.toList with
  | none => .error (.fault .notText)
  | some t => t.date?.elim (.error (.fault .malformedDate)) fun d => .ok (.date d)

/-- The scalar of a text with a tag. -/
def readScalar (tag : Tag) (text : String) : ScalarResult :=
  match tag with
  | .null => .ok .null
  | .bool => readBool text
  | .int => readInt text
  | .float => readFloat text
  | .timestamp => readTimestamp text
  | .str => .ok (.str text)
  | _ => .error .malformed

/-- The key of an entry: the mark of a default value is an ordinary text there. -/
def toKey : Node → ScalarResult
  | .scalar tag text => if tag = .default then .ok (.str text) else readScalar tag text
  | _ => .error .malformed

mutual

/-- The data of a tree. -/
def toValue : Node → Except ReadError Value
  | .scalar tag text => do return .scalar (← readScalar tag text)
  | .sequence tag elements =>
    if tag = .sequence then do return .list (← toValues elements) else .error .malformed
  | .mapping tag entries =>
    if tag = .mapping then do
      let merged ← mergedEntries entries
      let own ← ownEntries entries
      return .map (Entries.merge [] (merged ++ own))
    else .error .malformed

def toValues : List Node → Except ReadError (List Value)
  | [] => .ok []
  | x :: xs => do
    let v ← toValue x
    return v :: (← toValues xs)

/-- The entries of a mapping that are written in it. -/
def ownEntries : List (Node × Node) → Except ReadError Entries
  | [] => .ok []
  | (k, v) :: rest => do
    if k.tag = .merge then ownEntries rest
    else
      let key ← toKey k
      let value ← toValue v
      return (key, value) :: (← ownEntries rest)

/-- The entries of all mappings that are merged into a mapping. -/
def mergedEntries : List (Node × Node) → Except ReadError Entries
  | [] => .ok []
  | (k, v) :: rest => do
    let found ← if k.tag = .merge then mergeOf v else pure []
    return found ++ (← mergedEntries rest)

/-- The entries that a mapping, or a sequence of mappings, brings into another one. -/
def mergeOf : Node → Except ReadError Entries
  | .scalar .. => .error .malformed
  | .mapping _ entries => do
    let merged ← mergedEntries entries
    return merged ++ (← ownEntries entries)
  | .sequence _ elements => mergeAll elements

/-- The entries of a sequence of mappings; the first mapping comes last, so that it wins. -/
def mergeAll : List Node → Except ReadError Entries
  | [] => .ok []
  | .mapping _ entries :: rest => do
    let merged ← mergedEntries entries
    let own ← ownEntries entries
    return (← mergeAll rest) ++ (merged ++ own)
  | _ :: _ => .error .malformed

end

end Node

end ResourceCompiler.Yaml
