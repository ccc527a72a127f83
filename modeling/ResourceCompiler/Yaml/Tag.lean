import ResourceCompiler.Yaml.Timestamp

/-!
# Tags

What a node is. A plain scalar without a tag has the one that its text implies.
-/

namespace ResourceCompiler.Yaml

inductive Tag where
  | null | bool | int | float | timestamp | str | sequence | mapping
  /-- The key under which other mappings are merged in. -/
  | merge
  /-- The key of a mapping's default value. -/
  | default
  | other (name : String)
deriving DecidableEq

namespace Tag

/-- What the names of the standard tags start with. -/
def standardNames : String := "tag:yaml.org,2002:"

def standard : List (String × Tag) :=
  [("null", .null), ("bool", .bool), ("int", .int), ("float", .float), ("timestamp", .timestamp),
   ("str", .str), ("seq", .sequence), ("map", .mapping), ("merge", .merge), ("value", .default)]

def ofName (name : String) : Tag :=
  ((standard.find? fun (suffix, _) => standardNames ++ suffix = name).map (·.2)).getD (.other name)

def nullWords : List String := ["", "~", "null", "Null", "NULL"]

def trueWords : List String := ["yes", "Yes", "YES", "true", "True", "TRUE", "on", "On", "ON"]

def falseWords : List String := ["no", "No", "NO", "false", "False", "FALSE", "off", "Off", "OFF"]

def unsigned : List Char → List Char
  | '-' :: cs => cs
  | '+' :: cs => cs
  | cs => cs

def isGrouped (p : Char → Bool) (cs : List Char) : Bool :=
  !cs.isEmpty && cs.all fun c => p c || c = '_'

def isBit (c : Char) : Bool := c = '0' || c = '1'

def isOctal (c : Char) : Bool := '0' ≤ c && c ≤ '7'

def isHex (c : Char) : Bool := c.isDigit || ('a' ≤ c && c ≤ 'f') || ('A' ≤ c && c ≤ 'F')

/-- A number that starts with a digit other than zero. -/
def isDecimal : List Char → Bool
  | c :: cs => c.isDigit && c ≠ '0' && cs.all fun d => d.isDigit || d = '_'
  | [] => false

/-- A digit in base sixty. -/
def isSixtieth : List Char → Bool
  | [c] => c.isDigit
  | [c, d] => '0' ≤ c && c ≤ '5' && d.isDigit
  | _ => false

/-- Digits in base sixty behind a first number. -/
def isSexagesimal (first : List Char → Bool) (cs : List Char) : Bool :=
  match Text.splitAt (· = ':') cs with
  | head :: part :: parts => first head && (part :: parts).all isSixtieth
  | _ => false

def isInt (cs : List Char) : Bool :=
  match unsigned cs with
  | ['0'] => true
  | '0' :: 'b' :: cs => isGrouped isBit cs
  | '0' :: 'x' :: cs => isGrouped isHex cs
  | '0' :: cs => isGrouped isOctal cs
  | cs => isDecimal cs || isSexagesimal isDecimal cs

/-- An exponent, which has a sign, or none. -/
def isExponent : List Char → Bool
  | [] => true
  | [_] | [_, _] => false
  | e :: sign :: cs => (e = 'e' || e = 'E') && (sign = '+' || sign = '-') && cs.all Char.isDigit

/-- Digits and underscores that start with a digit. -/
def isWhole : List Char → Bool
  | c :: cs => c.isDigit && cs.all fun d => d.isDigit || d = '_'
  | [] => false

/-- What follows the point of a number. -/
def isFraction (cs : List Char) : Bool :=
  isExponent (cs.dropWhile fun d => d.isDigit || d = '_')

def infinities : List (List Char) := [".inf".toList, ".Inf".toList, ".INF".toList]

def notNumbers : List (List Char) := [".nan".toList, ".NaN".toList, ".NAN".toList]

def isFloat (cs : List Char) : Bool :=
  if notNumbers.contains cs || infinities.contains (unsigned cs) then true
  else
    match cs with
    | '.' :: c :: rest => c.isDigit && isFraction (c :: rest)
    | _ =>
      match Text.cut '.' (unsigned cs) with
      | (whole, some rest) =>
        (isWhole whole && isFraction rest) ||
          (isSexagesimal isWhole whole && rest.all fun d => d.isDigit || d = '_')
      | (_, none) => false

/-- The tag that the text of a plain scalar implies. -/
def ofPlain (text : String) : Tag :=
  let cs := text.toList
  if trueWords.contains text || falseWords.contains text then .bool
  else if isFloat cs then .float
  else if isInt cs then .int
  else if text = "<<" then .merge
  else if nullWords.contains text then .null
  else if Timestamp.isPlain cs then .timestamp
  else if text = "=" then .default
  else .str

end Tag

end ResourceCompiler.Yaml
