/-!
# Faults of unguarded data

What stops a run on data of a shape that nobody checks. The errors that are checked for, and have a
message, are in `ResourceCompiler.Error`.
-/

namespace ResourceCompiler

inductive Fault where
  /-- A member of a mapping is asked of another value. -/
  | notMapping
  /-- A text is asked to be taken apart, and the value is no text. -/
  | notText
  /-- The elements of a value that has none. -/
  | notIterable
  /-- The entry of a value that has no entries under a name. -/
  | notIndexable
  /-- A list or a mapping as a key or as a member of a set. -/
  | unhashable
  /-- A value that no number can be made of. -/
  | notNumber
  /-- Values that no order compares. -/
  | notOrdered
  /-- A value that no data text can hold. -/
  | notWritable
  /-- A value that is no path. -/
  | notPath
  /-- A value that is no part of a dotted name. -/
  | notSegment
  /-- An option that nobody declared. -/
  | unknownOption
  /-- A filter with arguments it does not take. -/
  | wrongArguments
  /-- A generator that leaves its language open. -/
  | openGenerator
  | missingKey
  /-- A number without any text. -/
  | emptyNumber
  /-- Text that is no number. -/
  | malformedNumber
  /-- A day or a time that no calendar has. -/
  | malformedDate
  | malformedUrl
  /-- An element of a list of pairs that has not two parts. -/
  | malformedPair
  /-- A name outside a closed list of names. -/
  | unknownName
  /-- A number beyond the range of its type. -/
  | outOfRange
  /-- A value that contains itself. -/
  | cyclic
  /-- A closing tag without its opening one. -/
  | markup
  /-- A table cell that is no text. -/
  | notRenderable
  | missingFile
  | isDirectory
deriving DecidableEq, Repr

end ResourceCompiler
