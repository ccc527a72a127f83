/-!
# Blanks and lines

Texts as lists of characters: trimming by a class of characters, cutting at a separator and joining
again.
-/

namespace ResourceCompiler.Text

/-- White space of ASCII. -/
def isAsciiBlank (c : Char) : Bool :=
  c = ' ' || (9 ≤ c.toNat && c.toNat ≤ 13)

/-- White space of Unicode, with the four separator controls and the next-line control. -/
def isBlank (c : Char) : Bool :=
  let n := c.toNat
  isAsciiBlank c || (0x1c ≤ n && n ≤ 0x1f) || n = 0x85 || n = 0xa0 || n = 0x1680 ||
    (0x2000 ≤ n && n ≤ 0x200a) || n = 0x2028 || n = 0x2029 || n = 0x202f || n = 0x205f || n = 0x3000

def trimRight (p : Char → Bool) (cs : List Char) : List Char :=
  (cs.reverse.dropWhile p).reverse

def trim (p : Char → Bool) (cs : List Char) : List Char :=
  trimRight p (cs.dropWhile p)

/-- The pieces between separators; one piece more than there are separators. -/
def splitAt (p : Char → Bool) : List Char → List (List Char)
  | [] => [[]]
  | c :: cs =>
    if p c then [] :: splitAt p cs
    else
      match splitAt p cs with
      | [] => [[c]]
      | piece :: rest => (c :: piece) :: rest

def lines (cs : List Char) : List (List Char) :=
  splitAt (· = '\n') cs

def joinWith (separator : List Char) : List (List Char) → List Char
  | [] => []
  | [piece] => piece
  | piece :: rest => piece ++ separator ++ joinWith separator rest

/-- The pieces of a text between separators, without the empty ones. -/
def segments (separator : Char) (s : String) : List String :=
  ((splitAt (· = separator) s.toList).filter (!·.isEmpty)).map String.ofList

def join (separator : String) (pieces : List String) : String :=
  String.ofList (joinWith separator.toList (pieces.map String.toList))

/-- The part before the first separator and, when there is one, the part after it. -/
def cut (separator : Char) : List Char → List Char × Option (List Char)
  | [] => ([], none)
  | c :: cs =>
    if c = separator then ([], some cs)
    else
      let (before, after) := cut separator cs
      (c :: before, after)

/-- Replaces each occurrence of `pattern`, found from the left, without looking inside a replacement. -/
def replaceAll (pattern replacement : List Char) : List Char → List Char
  | [] => []
  | c :: cs =>
    if pattern.isPrefixOf (c :: cs) ∧ pattern ≠ [] then
      replacement ++ replaceAll pattern replacement (cs.drop (pattern.length - 1))
    else c :: replaceAll pattern replacement cs
termination_by cs => cs.length
decreasing_by all_goals (simp only [List.length_cons, List.length_drop]; omega)

/-- Whether `pattern` occurs in a text. -/
def occursIn (pattern : List Char) : List Char → Bool
  | [] => pattern.isEmpty
  | c :: cs => pattern.isPrefixOf (c :: cs) || occursIn pattern cs

end ResourceCompiler.Text
