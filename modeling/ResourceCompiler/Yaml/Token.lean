import ResourceCompiler.Fault

/-!
# Tokens of YAML

A text as a list of tokens. Where block collections begin and end is told by tokens of their own, found
from the indentation.
-/

namespace ResourceCompiler.Yaml

/-- Why a text cannot be read: it is malformed, or a scalar in it has no value. -/
inductive ReadError where
  | malformed
  | fault (f : Fault)
deriving DecidableEq, Repr

/-- A tag as it is written: a suffix after a handle, or a full name. -/
structure RawTag where
  handle? : Option String
  suffix : String

inductive Directive where
  | version (major minor : Nat)
  /-- What a handle stands for. -/
  | handle (name expansion : String)
  | other

inductive Token where
  | directive (d : Directive)
  | documentStart
  | documentEnd
  | sequenceStart
  | mappingStart
  | blockEnd
  | openBracket
  | closeBracket
  | openBrace
  | closeBrace
  | dash
  | comma
  | key
  | value
  | alias (name : String)
  | anchor (name : String)
  | tag (t : RawTag)
  /-- A scalar; a plain one stands without quotes and not in a block of its own. -/
  | scalar (text : String) (plain : Bool)
  /-- The text from here on is no token. -/
  | failed (e : ReadError)

end ResourceCompiler.Yaml
