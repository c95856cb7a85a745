import Stubsmith.Data.Value
import Stubsmith.Logging.Record
import Stubsmith.Text.Upper

/-!
# Where log records go

Records are shown on the console and, if wanted, appended to a file, each with a threshold of its own.
The lower the threshold of the console, the more a line says; the file always says all.
-/
namespace Stubsmith.Logging

/-- The thresholds that have names. -/
def named : List (String × Int) :=
  [("DEBUG", 10), ("INFO", 20), ("WARNING", 30), ("WARN", 30), ("ERROR", 40), ("CRITICAL", 50),
   ("FATAL", 50), ("NOTSET", 0)]

/-- The threshold with a name, in any case. What is no name stands for warnings. -/
def threshold (name : Option String) : Int :=
  (named.lookup (Text.upper (name.getD ""))).getD 30

/-- How much a line says about its record. -/
inductive Format
  | full
  | origin
  | brief
  deriving DecidableEq, Repr

def Format.pattern : Format → String
  | full => "%(asctime)s %(levelname)-5s %(name)s:%(lineno)d — %(message)s"
  | origin => "%(asctime)s [%(name)s] %(message)s"
  | brief => "%(levelname)s: %(message)s"

/-- How lines on the console show the time. -/
def Format.clock : Format → Option String
  | brief => none
  | _ => some "%H:%M:%S"

/-- How lines in a file show the time. -/
def fileClock : String := "%Y-%m-%d %H:%M:%S"

/-- The format of the console for a threshold. -/
def consoleFormat (level : Int) : Format :=
  if level ≤ 10 then .full else if level ≤ 20 then .origin else .brief

/-- The outlets of log records. -/
structure Setup where
  console : Int
  /-- A file and its threshold. -/
  file : Option (String × Int)
  /-- Records of other parts than this program are shown from warnings on only. -/
  quietOthers : Bool
  deriving DecidableEq, Repr

namespace Setup

/-- The outlets for a console threshold and perhaps a file, whose threshold is that of the console
unless another is given. An empty name is none. -/
def of (level file fileLevel : Option String) (quietOthers : Bool) : Setup :=
  let console := threshold level
  let fileThreshold :=
    if fileLevel.getD "" = "" then console else threshold fileLevel
  { console
    file := if file.getD "" = "" then none else some (file.getD "", fileThreshold)
    quietOthers := quietOthers && 10 < console }

/-- The lowest threshold of the outlets. -/
def least (s : Setup) : Int :=
  match s.file with
  | some (_, level) => min s.console level
  | none => s.console

/-- The description of a format. -/
def formatValue (f : Format) (clock : Option String) : Value :=
  .mapping [("format", .text f.pattern),
    ("datefmt", match clock with | some c => .text c | none => .null)]

/-- The description of the outlet to the console. -/
def consoleValue (s : Setup) : Value :=
  .mapping [("class", .text "logging.StreamHandler"), ("stream", .text "ext://sys.stderr"),
    ("level", .number s.console 0), ("formatter", .text "console")]

/-- The description of the outlet to a file. -/
def fileValue (name : String) (level : Int) : Value :=
  .mapping [("class", .text "logging.FileHandler"), ("filename", .text name),
    ("encoding", .text "utf-8"), ("level", .number level 0), ("formatter", .text "file")]

/-- The setup as data. -/
def description (s : Setup) : Value :=
  let format := consoleFormat s.console
  let outlets := ("console", s.consoleValue) ::
    (match s.file with
      | some (name, level) => [("file", fileValue name level)]
      | none => [])
  .mapping
    [("version", .number 1 0),
     ("disable_existing_loggers", .bool false),
     ("formatters", .mapping [("console", formatValue format format.clock),
       ("file", formatValue .full (some fileClock))]),
     ("handlers", .mapping outlets),
     ("root", .mapping [("level", .number s.least 0),
       ("handlers", .list (outlets.map fun (name, _) => .text name))]),
     ("loggers", .mapping (if s.quietOthers then
       [("lark", .mapping [("level", .number 30 0)])] else []))]

end Setup

/-- What a line shows besides its record: times for the console and for the file, the place that the
record comes from, and what caused a failure. -/
structure Stamp where
  clock : String
  date : String
  place : String
  cause : String

/-- The name of a level in a column of five characters. -/
def paddedName (l : Level) : String :=
  l.name ++ String.ofList (List.replicate (5 - l.name.length) ' ')

/-- The full name of the channel of a record. -/
def channel (r : LogRecord) : String := "protostub." ++ r.origin.channel

/-- The line of a record, with a line for the cause of a failure. Half characters are spelled out. -/
def line (f : Format) (time : String) (stamp : Stamp) (r : LogRecord) : String :=
  let head := match f with
    | .full => time ++ " " ++ paddedName r.level ++ " " ++ channel r ++ ":" ++ stamp.place ++ " — "
    | .origin => time ++ " [" ++ channel r ++ "] "
    | .brief => r.level.name ++ ": "
  head ++ Text.spelled r.message ++ "\n" ++ if r.level = .failure then stamp.cause ++ "\n" else ""

/-- The lines of the records that reach a threshold. -/
def lines (level : Int) (f : Format) (time : String) (stamp : Stamp) (log : List LogRecord) : String :=
  String.join ((log.filter fun r => level ≤ r.level.weight).map (line f time stamp))

/-- What the console shows of the records. -/
def Setup.consoleText (s : Setup) (stamp : Stamp) (log : List LogRecord) : String :=
  lines s.console (consoleFormat s.console) stamp.clock stamp log

/-- What a file with a threshold holds of the records. A message with half characters in it cannot be
written to a file, and its record is left out. -/
def fileText (level : Int) (stamp : Stamp) (log : List LogRecord) : String :=
  lines level .full stamp.date stamp (log.filter fun r => !r.message.any (·.isHalf))

end Stubsmith.Logging
