/-!
# Quoted text

A text between double quotes in ASCII or in full: quotes, backslashes and controls are escaped, and
where only ASCII may stand, every other character too, by one escape of four digits per UTF-16 unit.
-/

namespace ResourceCompiler.Text

/-- The UTF-16 units of a character. -/
def units16 (c : Char) : List Nat :=
  let n := c.toNat
  if n < 0x10000 then [n]
  else [0xd800 + (n - 0x10000) / 0x400, 0xdc00 + (n - 0x10000) % 0x400]

/-- The last `count` digits of `n` in base sixteen, lower case. -/
def hexDigits (count n : Nat) : List Char :=
  (List.range count).reverse.map fun i => Nat.digitChar (n / Nat.pow 16 i % 16)

def unitEscape (n : Nat) : List Char :=
  '\\' :: 'u' :: hexDigits 4 n

/-- The short escapes of quotes, backslashes and the common controls. -/
def shortEscape? (c : Char) : Option Char :=
  if c = '"' then some '"'
  else if c = '\\' then some '\\'
  else if c = '\n' then some 'n'
  else if c = '\r' then some 'r'
  else if c = '\t' then some 't'
  else if c.toNat = 8 then some 'b'
  else if c.toNat = 12 then some 'f'
  else none

/-- A character as it stands in quoted text that is ASCII only when `ascii`. -/
def quoteChar (ascii : Bool) (c : Char) : List Char :=
  match shortEscape? c with
  | some e => ['\\', e]
  | none =>
    if c.toNat < 32 then unitEscape c.toNat
    else if ascii && 127 ≤ c.toNat then (units16 c).flatMap unitEscape
    else [c]

def quoteChars (ascii : Bool) (cs : List Char) : List Char :=
  '"' :: (cs.flatMap (quoteChar ascii) ++ ['"'])

/-- A text between double quotes, in ASCII only. -/
def quote (s : String) : String :=
  String.ofList (quoteChars true s.toList)

/-- A text between double quotes, with characters beyond ASCII left as they are. -/
def quoteFull (s : String) : String :=
  String.ofList (quoteChars false s.toList)

end ResourceCompiler.Text
