import ResourceCompiler.Text.Blank

/-!
# Names of generated code

Raw names become identifiers of ASCII letters, digits and the underscore. The words of a name are its
runs of letters and digits; names that differ only in what stands between the words become the same
identifier, on which the detection of collisions relies.
-/

namespace ResourceCompiler

/-- The names that generated code must not use as they are. -/
structure Sanitizer where
  reserved : List String
  builtin : List String := []

namespace Naming

def capitalize : List Char → List Char
  | [] => []
  | c :: cs => c.toUpper :: cs

/-- The runs of ASCII letters and digits. -/
def words (cs : List Char) : List (List Char) :=
  (Text.splitAt (fun c => !c.isAlphanum) cs).filter (!·.isEmpty)

/-- The name of what has no words in its name. -/
def nameless : List Char := "field".toList

/-- A name that starts with a digit gets an underscore in front. -/
def shielded : List Char → List Char
  | [] => []
  | c :: cs => if c.isDigit then '_' :: c :: cs else c :: cs

/-- Drops the underscore in front of a letter. -/
def dropEscape : List Char → List Char
  | '_' :: c :: cs => if c.isAlpha then c :: cs else '_' :: c :: cs
  | cs => cs

/-- A package path and a simple name as one dotted name. -/
def qualified (package : List String) (name : String) : String :=
  Text.join "." (package ++ [name])

/-- The package of an API group: its segments in reverse order. -/
def packageOfGroup (group : String) : String :=
  Text.join "." (Text.segments '.' group).reverse

end Naming

namespace Sanitizer

open Naming

/-- Puts an underscore in front of a reserved name. -/
def escape (s : Sanitizer) (name : List Char) : List Char :=
  let text := String.ofList name
  if s.reserved.contains text || s.builtin.contains text then '_' :: name else name

/-- The words of a name in one, each but the first capitalized. -/
def identifierChars (s : Sanitizer) (name : List Char) : List Char :=
  match words name with
  -- without words there is no escape
  | [] => nameless
  | first :: rest => s.escape (shielded (first ++ rest.flatMap capitalize))

/-- The identifier of a raw name, its case kept. -/
def identifier (s : Sanitizer) (name : String) : String :=
  String.ofList (s.identifierChars name.toList)

/-- The name of a generated type: capitalized, so that most reserved words need no escape. -/
def typeName (s : Sanitizer) (name : String) : String :=
  String.ofList (s.escape (capitalize (dropEscape (s.identifierChars name.toList))))

/-- A segment of a package path, in lower case. -/
def packageSegment (s : Sanitizer) (name : String) : String :=
  String.ofList (s.escape ((s.identifierChars name.toList).map Char.toLower))

/-- The constant of an enum value: every character that no identifier has becomes an underscore. -/
def constant (s : Sanitizer) (token : String) (uppercase : Bool) : String :=
  let cs := token.toList
  let replaced := cs.map fun c => if c.isAlphanum || c = '_' then c else '_'
  let named := if replaced.isEmpty then "EMPTY".toList else replaced
  let cased := if uppercase then named.map Char.toUpper else named
  -- the sign is an underscore by now, so that it is looked for in the value itself
  let isSigned := cs.head?.any fun c => c = '-' || c = '+'
  let marked := cased.head?.any Char.isDigit || isSigned
  String.ofList (s.escape (if marked then "V__".toList ++ cased else cased))

end Sanitizer

end ResourceCompiler
