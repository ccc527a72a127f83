import ResourceCompiler.Text.Blank
import ResourceCompiler.Text.Case

/-!
# Names of pictures

A name between colons stands for a picture; a name that is not known stays as it is. Which names are known
is up to the console: `pictures` are some that are in use.
-/

namespace ResourceCompiler.Console

abbrev Pictures := List (String × Char)

def pictures : Pictures :=
  [("grinning", '😀'), ("smiley", '😃'), ("smile", '😄'), ("grin", '😁'), ("laughing", '😆'),
   ("satisfied", '😆'), ("sweat_smile", '😅'), ("joy", '😂'), ("blush", '😊'), ("innocent", '😇'),
   ("wink", '😉'), ("heart_eyes", '😍'), ("kissing_heart", '😘'), ("neutral_face", '😐'),
   ("expressionless", '😑'), ("smirk", '😏'), ("unamused", '😒'), ("relieved", '😌'), ("pensive", '😔'),
   ("sleepy", '😪'), ("sunglasses", '😎'), ("confused", '😕'), ("worried", '😟'), ("cry", '😢'),
   ("sob", '😭'), ("scream", '😱'), ("rage", '😡'), ("skull", '💀'), ("hankey", '💩'), ("poop", '💩'),
   ("pile_of_poo", '💩'), ("ghost", '👻'), ("alien", '👽'), ("broken_heart", '💔'), ("100", '💯'),
   ("boom", '💥'), ("collision", '💥'), ("dizzy", '💫'), ("bomb", '💣'), ("wave", '👋'),
   ("ok_hand", '👌'), ("thumbsup", '👍'), ("thumbs_up", '👍'), ("+1", '👍'), ("thumbsdown", '👎'),
   ("thumbs_down", '👎'), ("-1", '👎'), ("clap", '👏'), ("pray", '🙏'), ("muscle", '💪'), ("eyes", '👀'),
   ("snake", '🐍'), ("penguin", '🐧'), ("bug", '🐛'), ("ant", '🐜'), ("rose", '🌹'),
   ("sunflower", '🌻'), ("banana", '🍌'), ("pizza", '🍕'), ("rocket", '🚀'), ("star", '⭐'),
   ("fire", '🔥'), ("zap", '⚡'), ("tada", '🎉'), ("party_popper", '🎉'), ("sparkles", '✨'),
   ("trophy", '🏆'), ("key", '🔑'), ("hammer", '🔨'), ("wrench", '🔧'), ("link", '🔗'),
   ("warning", '⚠'), ("no_entry", '⛔'), ("white_check_mark", '✅'), ("heavy_check_mark", '✔'),
   ("x", '❌'), ("question", '❓'), ("exclamation", '❗')]

/-- The endings that choose how a picture is shown. -/
def variants : List (List Char × Char) :=
  [("-emoji".toList, '\ufe0f'), ("-text".toList, '\ufe0e')]

/-- What a name between colons stands for. -/
def picture? (known : Pictures) (name : List Char) : Option (List Char) :=
  let variant? := variants.find? fun (ending, _) => ending.isSuffixOf name
  let (word, mark) := match variant? with
    | some (ending, mark) => (name.take (name.length - ending.length), [mark])
    | none => (name, [])
  (known.lookup (Text.lower (String.ofList word))).map (· :: mark)

/-- The characters up to the next colon, without blanks, and what follows it. -/
def untilColon? : List Char → Option (List Char × List Char)
  | [] => none
  | c :: cs =>
    if c = ':' then some ([], cs)
    else if Text.isBlank c then none
    else (untilColon? cs).map fun (name, rest) => (c :: name, rest)

/-- Replaces names between colons by their pictures; a name between colons is read once. -/
def withPictures (known : Pictures) (fuel : Nat) (cs : List Char) : List Char :=
  match fuel, cs with
  | n + 1, ':' :: rest =>
    match untilColon? rest with
    | some (name, after) =>
      (picture? known name).getD (':' :: name ++ [':']) ++ withPictures known n after
    | none => ':' :: withPictures known n rest
  | n + 1, c :: rest => c :: withPictures known n rest
  | _, cs => cs

end ResourceCompiler.Console
