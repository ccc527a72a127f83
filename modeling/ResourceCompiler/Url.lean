import ResourceCompiler.Json.Reader
import ResourceCompiler.Text.Case

/-!
# Addresses of manifests

The scheme and the authority of an address. An authority with brackets must hold an address of version
six between them, and no character of an authority may decompose into a separator.
-/

namespace ResourceCompiler

structure Url where
  scheme : String
  authority : String
deriving DecidableEq

namespace Url

def isControlOrSpace (c : Char) : Bool := c.toNat ≤ 0x20

def isSchemeChar (c : Char) : Bool := c.isAlphanum || c = '+' || c = '-' || c = '.'

/-- The scheme of an address and what follows its colon; without one the scheme is empty. -/
def splitScheme (cs : List Char) : List Char × List Char :=
  match Text.cut ':' cs with
  | (c :: scheme, some rest) =>
    if c.isAlpha && scheme.all isSchemeChar then ((c :: scheme).map Char.toLower, rest) else ([], cs)
  | _ => ([], cs)

/-- The authority after two slashes. -/
def authorityOf : List Char → List Char
  | '/' :: '/' :: cs => cs.takeWhile fun c => c ≠ '/' && c ≠ '?' && c ≠ '#'
  | _ => []

/-- A group of an address of version six. -/
def isGroup (cs : List Char) : Bool :=
  !cs.isEmpty && cs.length ≤ 4 && cs.all fun c => (Json.hexValue? c).isSome

/-- A part of an address of version four: a number below 256 without leading zeros. -/
def isOctet (cs : List Char) : Bool :=
  !cs.isEmpty && cs.length ≤ 3 && cs.all Char.isDigit && (cs.length = 1 || cs.head? ≠ some '0') &&
    Text.digitsToNat cs < 256

def isVersionFour (cs : List Char) : Bool :=
  let parts := Text.splitAt (· = '.') cs
  parts.length = 4 && parts.all isOctet

/-- The groups of an address, where one of version four at the end counts as two of them. -/
def groups? (cs : List Char) : Option (List (List Char)) :=
  let parts := Text.splitAt (· = ':') cs
  match parts.getLast? with
  | some last =>
    if last.contains '.' then
      if isVersionFour last then some (parts.dropLast ++ [['0'], ['0']]) else none
    else some parts
  | none => none

/-- Drops the empty group that stands at an end of an address, next to two colons. -/
def dropOuter (parts : List (List Char)) : List (List Char) :=
  if parts = [[]] then [] else parts

/-- Whether groups make an address: eight, or fewer around a single gap. -/
def areGroups (parts : List (List Char)) : Bool :=
  let inner := (parts.drop 1).dropLast
  match inner.filter List.isEmpty with
  | [] => parts.length = 8 && parts.all isGroup
  | [_] =>
    let gap := 1 + inner.findIdx List.isEmpty
    let before := dropOuter (parts.take gap)
    let after := dropOuter (parts.drop (gap + 1))
    (before ++ after).all isGroup && before.length + after.length < 8
  | _ => false

def isVersionSix (cs : List Char) : Bool :=
  let (address, scope?) := Text.cut '%' cs
  !cs.contains '/' && scope?.all (fun s => !s.isEmpty && !s.contains '%') &&
    2 ≤ cs.countP (· = ':') && (groups? address).any areGroups

/-- An address of a version to come: its version, a point and something. -/
def isFuture (cs : List Char) : Bool :=
  match Text.cut '.' cs with
  | ('v' :: version, some rest) =>
    !version.isEmpty && version.all (fun c => (Json.hexValue? c).isSome) && !rest.isEmpty &&
      !rest.contains '\n'
  | _ => false

/-- What stands between the first brackets. -/
def bracketed (cs : List Char) : List Char :=
  (Text.cut ']' (((Text.cut '[' cs).2).getD [])).1

def hasValidBrackets (authority : List Char) : Bool :=
  let opens := authority.contains '['
  let closes := authority.contains ']'
  if opens && closes then
    let host := bracketed authority
    if host.head? = some 'v' then isFuture host else isVersionSix host
  else !opens && !closes

/-- Characters that decompose into a text with a separator of addresses in it. -/
def separatorForms : List Nat :=
  [0x2047, 0x2048, 0x2049, 0x2100, 0x2101, 0x2105, 0x2106, 0x2a74, 0xfe13, 0xfe16, 0xfe55, 0xfe56,
   0xfe5f, 0xfe6b, 0xff03, 0xff0f, 0xff1a, 0xff1f, 0xff20]

/-- The scheme and the authority of an address, without blanks in front and line breaks inside. -/
def read (source : String) : Except Fault Url :=
  let cs := (source.toList.dropWhile isControlOrSpace).filter fun c => c ≠ '\t' && c ≠ '\r' && c ≠ '\n'
  let (scheme, rest) := splitScheme cs
  let authority := authorityOf rest
  if hasValidBrackets authority && authority.all fun c => !separatorForms.contains c.toNat then
    .ok ⟨String.ofList scheme, String.ofList authority⟩
  else .error .malformedUrl

/-- Whether the address has both of its parts. -/
def isComplete (u : Url) : Bool := u.scheme ≠ "" && u.authority ≠ ""

/-- Whether a text is the address of a page. -/
def isPage (source : String) : Except Fault Bool := do
  let u ← read source
  return (u.scheme = "http" || u.scheme = "https") && u.authority ≠ ""

end Url

end ResourceCompiler
