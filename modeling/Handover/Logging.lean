import Handover.Fault
import Handover.Text.Blank

/-!
# Logging

How much is logged, and the single destination of log messages.  A level is
turned into a filter that applies it to the engine's own messages and lets only
warnings of everything else pass.  The destination is set up once; a later
attempt is refused.
-/

namespace Handover

/-- Least severity that is logged. -/
inductive LogLevel where
  | trace
  | debug
  | info
  | warn
  | error
deriving DecidableEq, Repr, Inhabited

namespace LogLevel

/-- All levels, from the most to the least talkative. -/
def all : List LogLevel :=
  [trace, debug, info, warn, error]

/-- Place in `all`. -/
def rank : LogLevel → Nat
  | trace => 0
  | debug => 1
  | info => 2
  | warn => 3
  | error => 4

/-- Name of a level. -/
def name : LogLevel → String
  | trace => "trace"
  | debug => "debug"
  | info => "info"
  | warn => "warn"
  | error => "error"

/-- Name of a level on a log line. -/
def label (level : LogLevel) : String :=
  String.ofList (level.name.toList.map Char.toUpper)

/-- The level with exactly this name. -/
def ofName? (name : String) : Option LogLevel :=
  all.find? fun level => level.name == name

theorem ofName?_name (level : LogLevel) : ofName? level.name = some level := by
  cases level <;> decide

/-- Reading of a level as a person types it: blanks around it, letter case and
the longer word for warnings do not matter. -/
def parse (text : String) : Except Fault LogLevel :=
  let word := String.ofList ((stripBlanks text).toList.map Char.toLower)
  if word = "warning" then .ok warn
  else
    match ofName? word with
    | some level => .ok level
    | none => .error (.configuration ("unknown log level: " ++ word))

/-- Sources of the engine's own messages. -/
def sources : List String :=
  ["lteho_common", "lteho_fuzzy", "lteho_engine"]

/-- Filter that applies a level to the engine's own messages. -/
def directive (level : LogLevel) : String :=
  ",".intercalate ("warn" :: sources.map fun source => source ++ "=" ++ level.name)

end LogLevel

/-- Destination of log messages. -/
structure Subscriber where
  /-- What it lets pass. -/
  filter : String
deriving DecidableEq, Repr

namespace Subscriber

/-- Sets the destination up unless there is one already. -/
def install (current : Option Subscriber) (filter : String) : Except Fault Subscriber :=
  match current with
  | some _ => .error .loggingInstalled
  | none => .ok ⟨filter⟩

end Subscriber

end Handover
