import ResourceCompiler.Error
import ResourceCompiler.Text.Blank

/-!
# File trees

Files and directories below a working directory, as a value that reading and writing take and give
back. A directory is there when it is listed or when something below it is.
-/

namespace ResourceCompiler

/-- Where a path starts: here, at the root, or at the root that two slashes call. -/
inductive PathStart where
  | here | root | doubleRoot
deriving DecidableEq

namespace PathStart

def text : PathStart → String
  | .here => ""
  | .root => "/"
  | .doubleRoot => "//"

/-- The start of a text: two slashes are one of their own, more are as good as one. -/
def ofChars : List Char → PathStart
  | '/' :: '/' :: '/' :: _ => .root
  | '/' :: '/' :: _ => .doubleRoot
  | '/' :: _ => .root
  | _ => .here

end PathStart

/-- A path without empty and single-dot parts. -/
structure Path where
  start : PathStart
  parts : List String
deriving DecidableEq

namespace Path

def ofString (s : String) : Path where
  start := .ofChars s.toList
  parts := (Text.segments '/' s).filter (· ≠ ".")

def text (p : Path) : String :=
  if p.start = .here && p.parts.isEmpty then "." else p.start.text ++ Text.join "/" p.parts

def parent (p : Path) : Path := { p with parts := p.parts.dropLast }

/-- The path of the first `n` parts. -/
def take (p : Path) (n : Nat) : Path := { p with parts := p.parts.take n }

/-- `q` below `p`; an absolute `q` stands for itself. -/
def append (p q : Path) : Path :=
  if q.start ≠ .here then q else { p with parts := p.parts ++ q.parts }

/-- The last part from its last point on, which is neither its first nor its last character. -/
def suffix (p : Path) : String :=
  let name := ((p.parts.getLast?.getD "").toList).reverse
  let ending := name.takeWhile (· ≠ '.')
  if ending.isEmpty || name.length ≤ ending.length + 1 then ""
  else String.ofList ('.' :: ending.reverse)

def lowerSuffix (p : Path) : String :=
  String.ofList (p.suffix.toList.map Char.toLower)

/-- The path that `p` stands for after its parts are followed, up for two dots. -/
def resolved (p : Path) : List String :=
  let start := if p.start = .here then [] else ["/"]
  p.parts.foldl (fun done part =>
    if part = ".." then
      match done.getLast? with
      | none | some ".." => done ++ [".."]
      | some "/" => done
      | some _ => done.dropLast
    else done ++ [part]) start

end Path

/-- What a place in the tree holds. -/
inductive FileEntry where
  | file (text : String)
  | directory

structure FileTree where
  entries : List (List String × FileEntry)

namespace FileTree

def lookup? (t : FileTree) (place : List String) : Option FileEntry :=
  (t.entries.find? (·.1 = place)).map (·.2)

/-- Whether a place lies at the top, above it or at the root of all files. -/
def isAbove (place : List String) : Bool :=
  place.all fun part => part = ".." || part = "/"

def isDirectoryAt (t : FileTree) (place : List String) : Bool :=
  isAbove place || t.entries.any fun (p, entry) =>
    match entry with
    | .directory => place.isPrefixOf p
    | .file _ => place.isPrefixOf p && p ≠ place

def isFileAt (t : FileTree) (place : List String) : Bool :=
  match t.lookup? place with
  | some (.file _) => true
  | _ => false

/-- The places that lead to a place, the nearest last, without the place itself. -/
def leadingTo (place : List String) : List (List String) :=
  (List.range place.length).map place.take

/-- Why a path cannot be followed: it goes up from a place that is no directory. -/
def blocked? (t : FileTree) (p : Path) : Option FileError :=
  (List.range p.parts.length).findSome? fun i =>
    let place := (p.take i).resolved
    if p.parts[i]? ≠ some ".." || t.isDirectoryAt place then none
    else if t.isFileAt place || (leadingTo place).any t.isFileAt then some (.notDirectory p.text)
    else some (.noSuchFile p.text)

def isDirectory (t : FileTree) (p : Path) : Bool :=
  (t.blocked? p).isNone && t.isDirectoryAt p.resolved

def contains (t : FileTree) (p : Path) : Bool :=
  t.isDirectory p || ((t.blocked? p).isNone && t.isFileAt p.resolved)

/-- Line ends of every kind as single newlines, as text files are read. -/
def plainLines : List Char → List Char
  | [] => []
  | '\r' :: '\n' :: cs => '\n' :: plainLines cs
  | '\r' :: cs => '\n' :: plainLines cs
  | c :: cs => c :: plainLines cs

def read (t : FileTree) (p : Path) : Except FileError String :=
  let place := p.resolved
  match t.blocked? p, t.lookup? place with
  | some e, _ => .error e
  | none, some (.file text) => .ok (String.ofList (plainLines text.toList))
  | none, _ =>
    if t.isDirectoryAt place then .error (.isDirectory p.text)
    else if (leadingTo place).any t.isFileAt then .error (.notDirectory p.text)
    else .error (.noSuchFile p.text)

/-- Sets the text of a file without any question. -/
def put (t : FileTree) (place : List String) (text : String) : FileTree :=
  if t.entries.any (·.1 = place) then
    ⟨t.entries.map fun (p, entry) => if p = place then (p, .file text) else (p, entry)⟩
  else ⟨t.entries ++ [(place, .file text)]⟩

/-- The tree of files given by path and text; a path that ends in a slash is an empty directory. -/
def ofFiles (files : List (String × String)) : FileTree :=
  files.foldl (fun t (path, text) =>
    let place := (Path.ofString path).resolved
    if path.toList.getLast? = some '/' then ⟨t.entries ++ [(place, .directory)]⟩
    else t.put place text) ⟨[]⟩

/-- Why nothing can be made at a path, which must lie in a directory that is there. -/
def obstacle? (t : FileTree) (p : Path) : Option FileError :=
  let place := p.resolved
  if (leadingTo place).any t.isFileAt then some (.notDirectory p.text)
  else if t.isDirectoryAt place.dropLast then none
  else some (.noSuchFile p.text)

/-- Writes a file whose directory is there. -/
def write (t : FileTree) (p : Path) (text : String) : Except FileError FileTree :=
  let place := p.resolved
  match t.blocked? p, t.obstacle? p with
  | some e, _ => .error e
  | none, some e => .error e
  | none, none =>
    if t.isDirectoryAt place then .error (.isDirectory p.text) else .ok (t.put place text)

/-- Makes a directory in one that is there. A directory that is there already is as good. -/
def makeLast (t : FileTree) (p : Path) : Except FileError FileTree :=
  let place := p.resolved
  match t.blocked? p with
  | some e => .error e
  | none =>
    if t.isDirectoryAt place then .ok t
    else if t.isFileAt place then .error (.occupied p.text)
    else
      match t.obstacle? p with
      | some e => .error e
      | none => .ok ⟨t.entries ++ [(place, .directory)]⟩

/-- Makes a directory whose parts are given in reverse; where it is missing, the one it lies in first. -/
def makeAll (t : FileTree) (start : PathStart) : List String → Except FileError FileTree
  | [] => t.makeLast ⟨start, []⟩
  | part :: outer =>
    let p : Path := ⟨start, (part :: outer).reverse⟩
    match t.makeLast p with
    | .error (.noSuchFile _) => do (← t.makeAll start outer).makeLast p
    | made => made

/-- Makes a directory and all that lead to it, unless a file is in the way. -/
def makeDirectory (t : FileTree) (p : Path) : Except FileError FileTree :=
  t.makeAll p.start p.parts.reverse

/-- Order of paths: part by part. -/
def pathLe : List String → List String → Bool
  | [], _ => true
  | _ :: _, [] => false
  | a :: as, b :: bs => if a = b then pathLe as bs else decide (a < b)

/-- The files below a directory, as paths below it, in order. -/
def filesBelow (t : FileTree) (p : Path) : List (List String) :=
  let place := p.resolved
  let below := t.entries.filterMap fun (q, entry) =>
    match entry with
    | .file _ => if place.isPrefixOf q ∧ q ≠ place then some (q.drop place.length) else none
    | .directory => none
  below.mergeSort pathLe

end FileTree

end ResourceCompiler
