import ResourceCompiler.Text.Blank
import ResourceCompiler.Value

/-!
# Loggers

The names of loggers form a tree below that of the program. Setting up the logging replaces the handler
of the program's logger, so that there is one, and sets the least level that is shown.
-/

namespace ResourceCompiler.Logging

def rootName : String := "crd_codegen"

/-- The name of a logger below the program's one. -/
def loggerName (name : String) : String :=
  if name = rootName ∨ (rootName ++ ".").toList.isPrefixOf name.toList then name
  else rootName ++ "." ++ name

def levels : List (String × Int) :=
  [("CRITICAL", 50), ("FATAL", 50), ("ERROR", 40), ("WARN", 30), ("WARNING", 30), ("INFO", 20),
   ("DEBUG", 10), ("NOTSET", 0)]

/-- The number of a level that is given as such or by its name. -/
def levelOf (v : Value) : Except Fault Int :=
  match v with
  | .int n => .ok n
  | .bool b => .ok (if b then 1 else 0)
  | .str name => (levels.lookup name).elim (.error .unknownName) .ok
  | _ => .error .notNumber

/-- The program's logger: its level and how many handlers write to the console. -/
structure Logger where
  level : Int
  handlers : Nat

/-- The logger after it was set up, whatever it was before. -/
def setUp (level : Value) : Except Fault Logger := do
  return ⟨← levelOf level, 1⟩

end ResourceCompiler.Logging
