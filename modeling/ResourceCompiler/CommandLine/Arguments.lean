import ResourceCompiler.Text.Blank
import ResourceCompiler.Text.Digit
import ResourceCompiler.Value.Text

/-!
# Arguments of the command line

Long options may be cut short as long as one option alone starts with them, short ones may stand together
behind one dash. There are no arguments beside the options. What is wrong with a word itself is told
before anything is done; everything else in the order of the words.
-/

namespace ResourceCompiler.CommandLine

def programName : String := "crd-codegen"

def version : String := "0.1.0"

inductive Flag where
  | help | source | target | language | config | existingType | packageOverride
  | preserveUnknownFields | noEnumUppercase | noGeneratedAnnotations
  | dryRun | listLanguages | verbose | version
deriving DecidableEq, Repr

namespace Flag

/-- All spellings of flags, in the order of their declaration. -/
def spellings : List (String × Flag) :=
  [("-h", .help), ("--help", .help), ("--source", .source), ("-s", .source), ("--target", .target),
   ("-t", .target), ("--language", .language), ("-l", .language), ("--config", .config),
   ("--existing-type", .existingType), ("--package-override", .packageOverride),
   ("--preserve-unknown-fields", .preserveUnknownFields), ("--no-enum-uppercase", .noEnumUppercase),
   ("--no-generated-annotations", .noGeneratedAnnotations), ("--dry-run", .dryRun),
   ("--list-languages", .listLanguages), ("--verbose", .verbose), ("-v", .verbose),
   ("--version", .version)]

/-- How messages call a flag: all its spellings. -/
def title (f : Flag) : String :=
  Text.join "/" ((spellings.filter (·.2 = f)).map (·.1))

def takesValue : Flag → Bool
  | .source | .target | .language | .config | .existingType | .packageOverride => true
  | _ => false

end Flag

/-- What a command line asks for. -/
structure Options where
  sources : List String := []
  target? : Option String := none
  language : String := "java"
  config? : Option String := none
  existingTypes : List (String × String) := []
  packageOverrides : List (String × String) := []
  preserveUnknownFields : Bool := false
  noEnumUppercase : Bool := false
  noGeneratedAnnotations : Bool := false
  dryRun : Bool := false
  listLanguages : Bool := false
  verbose : Bool := false

inductive UsageError where
  | ambiguous (word : String) (spellings : List String)
  | missingValue (flag : Flag)
  | unwantedValue (flag : Flag) (value : String)
  | notPair (flag : Flag) (value : String)
  | unrecognized (words : List String)
  | noSource
  | noTarget

namespace UsageError

def about (flag : Flag) (message : String) : String :=
  "argument " ++ flag.title ++ ": " ++ message

def statement : UsageError → String
  | .ambiguous word spellings =>
    "ambiguous option: " ++ word ++ " could match " ++ Text.join ", " spellings
  | .missingValue f => about f "expected one argument"
  | .unwantedValue f v => about f ("ignored explicit argument " ++ Text.apostrophes v)
  | .notPair f v => about f (f.title ++ " expects KEY=VALUE, got " ++ Text.apostrophes v)
  | .unrecognized words => "unrecognized arguments: " ++ Text.join " " words
  | .noSource => "at least one --source is required"
  | .noTarget => "--target is required unless --dry-run is given"

def message (e : UsageError) : String := programName ++ ": error: " ++ e.statement

end UsageError

/-- Why the arguments do not lead to a run. -/
inductive Stop where
  | usage (e : UsageError)
  | version
  | help

/-- What stands behind a flag in the same word. -/
structure Attached where
  /-- Whether an equals sign stands in between. -/
  separated : Bool
  text : String

/-- What a word of the command line is. -/
inductive Word where
  | flag (f : Flag) (short : Bool) (attached? : Option Attached)
  /-- A word that looks like a flag and is none. -/
  | unknown
  | plain
  /-- The double dash after which all words are plain. -/
  | separator

namespace Word

def isShort (spelling : List Char) : Bool := spelling[1]?.any (· ≠ '-')

def ofSpelling? (spelling : List Char) (attached? : Option Attached) : Option Word :=
  (Flag.spellings.lookup (String.ofList spelling)).map fun f => .flag f (isShort spelling) attached?

def isDigit (c : Char) : Bool := (Text.digitValue? c).isSome

def isNegativeNumber (word : List Char) : Bool :=
  match word with
  | '-' :: cs =>
    match Text.cut '.' cs with
    | (whole, none) => !whole.isEmpty && whole.all isDigit
    | (whole, some fraction) => whole.all isDigit && !fraction.isEmpty && fraction.all isDigit
  | _ => false

def startsWith (spelling : String) (start : List Char) : Bool := start.isPrefixOf spelling.toList

/-- The flags that a long word may be short for. -/
def longMatches (word : List Char) : List (String × Word) :=
  let (start, value?) := Text.cut '=' word
  let attached? := value?.map fun v => (⟨true, String.ofList v⟩ : Attached)
  (Flag.spellings.filter fun (s, _) => startsWith s start).map fun (s, f) =>
    (s, .flag f (isShort s.toList) attached?)

/-- The flags that a word with one dash may be: a short one with a text behind it, or part of another. -/
def shortMatches (word : List Char) : List (String × Word) :=
  Flag.spellings.filterMap fun (s, f) =>
    if s.toList = word.take 2 then some (s, .flag f true (some ⟨false, String.ofList (word.drop 2)⟩))
    else if startsWith s word then some (s, .flag f (isShort s.toList) none)
    else none

/-- A word of several characters that starts with a dash and spells no flag completely. -/
def ofPart (word : List Char) : Except UsageError Word :=
  let found := if word[1]? = some '-' then longMatches word else shortMatches word
  match found with
  | [(_, w)] => .ok w
  | [] => .ok (if isNegativeNumber word || word.contains ' ' then .plain else .unknown)
  | _ => .error (.ambiguous (String.ofList word) (found.map (·.1)))

def read (word : List Char) : Except UsageError Word :=
  match word with
  | '-' :: _ :: _ =>
    match ofSpelling? word none, Text.cut '=' word with
    | some w, _ => .ok w
    | none, (spelling, some v) =>
      match ofSpelling? spelling (some ⟨true, String.ofList v⟩) with
      | some w => .ok w
      | none => ofPart word
    | none, (_, none) => ofPart word
  | _ => .ok .plain

/-- The words with what they are. -/
def readAll : List String → Except UsageError (List (String × Word))
  | [] => .ok []
  | s :: rest =>
    if s = "--" then .ok ((s, .separator) :: rest.map fun s => (s, .plain))
    else do
      let w ← read s.toList
      return (s, w) :: (← readAll rest)

end Word

/-- Two texts around the first equals sign, without blanks around them. -/
def readPair (flag : Flag) (value : String) : Except Stop (String × String) :=
  match Text.cut '=' value.toList with
  | (k, some v) =>
    if k.isEmpty || v.isEmpty then .error (.usage (.notPair flag value))
    else
      let trimmed (cs : List Char) := String.ofList (Text.trim Text.isBlank cs)
      .ok (trimmed k, trimmed v)
  | _ => .error (.usage (.notPair flag value))

namespace Options

/-- Sets a flag that has no value. -/
def set (o : Options) : Flag → Except Stop Options
  | .help => .error .help
  | .version => .error .version
  | .preserveUnknownFields => .ok { o with preserveUnknownFields := true }
  | .noEnumUppercase => .ok { o with noEnumUppercase := true }
  | .noGeneratedAnnotations => .ok { o with noGeneratedAnnotations := true }
  | .dryRun => .ok { o with dryRun := true }
  | .listLanguages => .ok { o with listLanguages := true }
  | .verbose => .ok { o with verbose := true }
  | _ => .ok o

def setValue (o : Options) (flag : Flag) (value : String) : Except Stop Options :=
  match flag with
  | .source => .ok { o with sources := o.sources ++ [value] }
  | .target => .ok { o with target? := some value }
  | .language => .ok { o with language := value }
  | .config => .ok { o with config? := some value }
  | .existingType => do
    return { o with existingTypes := o.existingTypes ++ [← readPair flag value] }
  | .packageOverride => do
    return { o with packageOverrides := o.packageOverrides ++ [← readPair flag value] }
  | _ => .ok o

end Options

/-- What a short flag and the letters behind it in one word come to. -/
inductive Bundle where
  /-- The flags without values, then one with the value given, or one whose value is the next word. -/
  | flags (set : List Flag) (last? : Option (Flag × Option String))
  /-- The flags up to a letter that is none, and the rest from there on. -/
  | stray (set : List Flag) (rest : String)

namespace Bundle

def cons (f : Flag) : Bundle → Bundle
  | .flags set last? => .flags (f :: set) last?
  | .stray set rest => .stray (f :: set) rest

/-- The flags of a word whose first one is `f`, with `text` behind it. -/
def read (fuel : Nat) (f : Flag) (separated : Bool) (text : List Char) : Except Stop Bundle :=
  match fuel with
  | 0 => .error (.usage (.unwantedValue f (String.ofList text)))
  | n + 1 =>
    if f.takesValue then .ok (.flags [] (some (f, some (String.ofList text))))
    else
      match text with
      | [] => .error (.usage (.unwantedValue f ""))
      | c :: rest =>
        if separated || c = '-' then .error (.usage (.unwantedValue f (String.ofList text)))
        else
          match Flag.spellings.lookup (String.ofList ['-', c]), rest with
          | none, _ => .ok (.stray [f] (String.ofList ('-' :: text)))
          | some g, [] =>
            .ok (if g.takesValue then .flags [f] (some (g, none)) else .flags [f, g] none)
          | some g, '=' :: value => (read n g true value).map (cons f)
          | some g, _ => (read n g false rest).map (cons f)

end Bundle

/-- The options so far and the words that nobody asked for. -/
structure Progress where
  options : Options := {}
  extras : List String := []

namespace Progress

def extra (p : Progress) (word : String) : Progress := { p with extras := p.extras ++ [word] }

def setAll (p : Progress) (flags : List Flag) : Except Stop Progress := do
  return { p with options := ← flags.foldlM Options.set p.options }

def setValue (p : Progress) (flag : Flag) (value : String) : Except Stop Progress := do
  return { p with options := ← p.options.setValue flag value }

/-- The flags that a word holds; one without attached text stands alone. -/
def bundleOf (f : Flag) (short : Bool) (attached? : Option Attached) : Except Stop Bundle :=
  match attached? with
  | none => .ok (if f.takesValue then .flags [] (some (f, none)) else .flags [f] none)
  | some a =>
    if short then Bundle.read (a.text.length + 1) f a.separated a.text.toList
    else if f.takesValue then .ok (.flags [] (some (f, some a.text)))
    else .error (.usage (.unwantedValue f a.text))

def takeAll (p : Progress) : List (String × Word) → Except Stop Progress
  | [] => .ok p
  | (word, .plain) :: rest | (word, .unknown) :: rest | (word, .separator) :: rest =>
    (p.extra word).takeAll rest
  | (_, .flag f short attached?) :: rest =>
    match bundleOf f short attached? with
    | .error e => .error e
    | .ok (.stray flags extra) => do ((← p.setAll flags).extra extra).takeAll rest
    | .ok (.flags flags none) => do (← p.setAll flags).takeAll rest
    | .ok (.flags flags (some (g, some value))) => do (← (← p.setAll flags).setValue g value).takeAll rest
    | .ok (.flags flags (some (g, none))) =>
      match rest with
      | (value, .plain) :: rest => do (← (← p.setAll flags).setValue g value).takeAll rest
      | _ => .error (.usage (.missingValue g))

end Progress

/-- The options that the words of a command line spell. -/
def parse (words : List String) : Except Stop Options := do
  match Word.readAll words with
  | .error e => .error (.usage e)
  | .ok words =>
    let p ← ({} : Progress).takeAll words
    if p.extras.isEmpty then return p.options else .error (.usage (.unrecognized p.extras))

end ResourceCompiler.CommandLine
