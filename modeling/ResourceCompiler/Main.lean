import ResourceCompiler.CommandLine.Run

/-!
# The program

Reads the sources, the configuration and the target from disk, runs the command line on them and writes
what the run has written. Pages cannot be reached from here.
-/

namespace ResourceCompiler.CommandLine

def placeText : List String → String
  | "/" :: parts => "/" ++ Text.join "/" parts
  | parts => if parts.isEmpty then "." else Text.join "/" parts

/-- What lies at a place and below it. -/
partial def readPlace (place : List String) : IO (List (List String × FileEntry)) := do
  try
    let path ← IO.FS.realPath (placeText place)
    if ← path.isDir then
      let mut found := [(place, FileEntry.directory)]
      for entry in ← path.readDir do
        found := found ++ (← readPlace (place ++ [entry.fileName]))
      return found
    else if ← path.pathExists then return [(place, .file (← IO.FS.readFile path))]
    else return []
  catch _ => return []

/-- The tree of everything that the options name. -/
def readTree (o : Options) : IO FileTree := do
  let names := o.sources ++ o.config?.toList ++ o.target?.toList
  let mut entries := []
  for name in names do
    for entry in ← readPlace (Path.ofString name).resolved do
      if entries.all fun (known : List String × FileEntry) => known.1 ≠ entry.1 then
        entries := entries ++ [entry]
  return ⟨entries⟩

/-- Writes the files of a tree that another one has not, or with another text. -/
def writeChanges (before after : FileTree) : IO Unit := do
  for (place, entry) in after.entries do
    if let .file text := entry then
      let known := match before.lookup? place with
        | some (.file old) => old = text
        | _ => false
      if !known then
        IO.FS.createDirAll (placeText place.dropLast)
        IO.FS.writeFile (placeText place) text

end ResourceCompiler.CommandLine

open ResourceCompiler CommandLine in
def main (words : List String) : IO UInt32 := do
  let files ← match parse words with
    | .ok o => readTree o
    | .error _ => pure ⟨[]⟩
  let (outcome, usage?) := run files [] words
  for line in outcome.lines do IO.println line
  if let some e := usage? then IO.eprintln e.message
  writeChanges files outcome.files
  match outcome.exit with
  | .ok n => return n.toUInt32
  | .error _ =>
    IO.eprintln "The sources hold data of a shape that cannot be compiled."
    return 1
