import Stubsmith.CommandLine.Options
import Stubsmith.CommandLine.Screen
import Stubsmith.CommandLine.Terminal
import Stubsmith.Config.Load
import Stubsmith.Files.Append
import Stubsmith.Logging.Journal
import Stubsmith.Logging.Reference

/-!
# The command

Reads the arguments, sets up the log, loads the configuration and carries out a run. Options take
precedence over the configuration. What goes wrong with the request is reported with an exit code;
what goes wrong beyond it ends the command where it stands.
-/
namespace Stubsmith.CommandLine

open Files (Path Route FileSystem)
open Generation (Request RunResult Abort)
open Logging (Journal Setup Stamp note)
open Text (CodePoint)

/-- The variables that the command looks at. -/
structure Environment where
  logLevel : Option String := none
  logFile : Option String := none
  logFileLevel : Option String := none

/-- What ends the command where it stands. -/
inductive Crash
  | nullArgument
  | logFile
  | unnamedWriter (e : Unnamed)
  | config (e : Config.LoadError)
  | run (e : Abort)

def Crash.message : Crash → String
  | nullArgument => "embedded null byte"
  | logFile => "Unable to configure handler 'file'"
  | unnamedWriter e => e.message
  | config e => e.message
  | run e => e.message

/-- How the command ended: with an exit code or with a crash. -/
inductive Ending
  | exit (code : Nat)
  | crash (c : Crash)

def Ending.code : Ending → Nat
  | exit n => n
  | crash _ => 1

/-- What the command did: how it ended, the pieces of what it wrote besides the log, its records and the
files after it. -/
structure Effect where
  ending : Ending
  out : List (List CodePoint) := []
  err : List (List CodePoint) := []
  log : List LogRecord := []
  fs : FileSystem

/-- The effect after some records that have been made before. -/
def Effect.after (e : Effect) (log : List LogRecord) : Effect := { e with log := log ++ e.log }

/-- The outlets of the log. Options take precedence over the environment. -/
def setup (env : Environment) (o : Options) : Setup :=
  let level :=
    if o.debug then "DEBUG" else if o.verbose then "INFO" else if o.quiet then "ERROR"
    else env.logLevel.getD "WARNING"
  Setup.of (some level) env.logFile env.logFileLevel (!o.debug)

/-- The end of a command that cannot do what it was asked to. -/
def refuse (o : Options) (fs : FileSystem) (log : List LogRecord) (message : List CodePoint) :
    Effect :=
  if o.json then { ending := .exit 1, out := [errorJson message ++ "\n"], log, fs }
  else { ending := .exit 1, err := ["❌ " ++ message ++ "\n" ++ hint], log, fs }

def misuse (fs : FileSystem) (log : List LogRecord) (e : UsageError) : Effect :=
  { ending := .exit 2, err := [e.text], log, fs }

/-- The route of an argument. -/
def givenRoute (arg : String) : Route := Route.ofPath (Path.ofString arg)

/-- The request that the options make, with the configuration for what they leave open. An empty name
of a writer leaves it open. -/
def request (o : Options) (c : Config.Settings) : Except UsageError Request :=
  match (o.input.map givenRoute).or c.input, (o.out.map givenRoute).or c.out with
  | none, _ => .error (.missingOption "-p" "--proto")
  | some _, none => .error (.missingOption "-o" "--out")
  | some input, some out =>
    .ok { input, out
          writer := if o.writer.getD "" = "" then c.writer else o.writer.map fun name => Text.points name.toList
          recursive := o.recursive.getD c.recursive }

/-- What is shown of the result of a run. -/
def present (o : Options) (fs : FileSystem) (log : List LogRecord) (r : RunResult) : Effect :=
  if o.json then
    { ending := .exit (if r.ok then 0 else 1), out := [resultJson r ++ "\n"], log, fs }
  else match r.report with
    | .error e => refuse o fs log e.message
    | .ok report =>
      let writer := (r.writer.map (·.name)).getD ""
      { ending := .exit 0
        out := reportText o.quiet writer r.request.input r.request.out report
        log, fs }

/-- Carries out the request that the options and the configuration make. -/
def generate (o : Options) (registry : Registry) (journal : Option Journal) (fs : FileSystem)
    (settings : Config.Settings) : Effect :=
  match request o settings with
  | .error e => misuse fs [] e
  | .ok req =>
    let done := Generation.run journal fs (.registry registry) req
    match done.result with
    | .error e => { ending := .crash (.run e), log := done.log, fs := done.fs }
    | .ok r => present o done.fs done.log r

/-- The end of a command whose configuration cannot be loaded. -/
def unconfigured (o : Options) (fs : FileSystem) : Config.LoadError → Effect
  | .config e => refuse o fs [] e.message
  | e => { ending := .crash (.config e), fs }

/-- Lists the writers. -/
def listWriters (o : Options) (registry : Registry) (fs : FileSystem) : Effect :=
  let all := registry.status
  let text := if o.json then (writersValue all).json ++ "\n" else writersText all
  { ending := .exit 0, out := [text], fs }

/-- Carries out the command once its log is set up. The records are noted as they are made: the
configuration file may be the log file itself. -/
def perform (o : Options) (plugins : List Plugin) (journal : Option Journal) (fs : FileSystem) :
    Effect :=
  let loaded := Registry.default plugins
  let fs := note journal loaded.log fs
  match loaded.failure with
  | some e => { ending := .crash (.unnamedWriter e), log := loaded.log, fs }
  | none =>
    if o.listWriters then (listWriters o loaded.registry fs).after loaded.log
    else match Config.choose fs (o.config.map Path.ofString) true with
      | .error e => (unconfigured o fs e).after loaded.log
      | .ok chosen =>
        let fs := note journal (Config.begun chosen) fs
        let (result, log) := Config.loadChosen fs chosen
        let fs := note journal log fs
        let early := loaded.log ++ Config.begun chosen ++ log
        match result with
        | .error e => (unconfigured o fs e).after early
        | .ok settings => (generate o loaded.registry journal fs settings).after early

/-- The log file and the files once it is open. -/
def openLog (s : Setup) (stamp : Stamp) (fs : FileSystem) : Option (Option Journal × FileSystem) :=
  match s.file with
  | none => some (none, fs)
  | some (given, threshold) => do
    let p := Path.ofString (← Logging.resolve? given)
    if fs.isAdrift p then none
    else match fs.openAppend FileSystem.linkLimit (fs.plainPath p) with
      | .ok (location, fs) => some (some ⟨location, threshold, stamp⟩, fs)
      | .error _ => none

/-- What is left to see of a command. -/
structure Result where
  ending : Ending
  out : String
  err : String
  fs : FileSystem

/-- Carries out the command with the log that is set up. Its records are shown on the console, too. -/
def runLogged (s : Setup) (stamp : Stamp) (journal : Option Journal) (plugins : List Plugin)
    (fs : FileSystem) (o : Options) : Result :=
  let e := perform o plugins journal fs
  { ending := e.ending
    out := shown e.out
    err := withLineFeeds (s.consoleText stamp e.log) ++ shown e.err
    fs := e.fs }

/-- One of the arguments that are paths holds a character that no path may hold. -/
def hasNull (o : Options) : Bool :=
  [o.input, o.out, o.config].any fun v => (v.getD "").toList.contains '\x00'

/-- Carries out the options. -/
def runOptions (env : Environment) (stamp : Stamp) (plugins : List Plugin) (fs : FileSystem)
    (o : Options) : Result :=
  match o.notice with
  | some .help => { ending := .exit 0, out := help, err := "", fs }
  | some .version => { ending := .exit 0, out := version, err := "", fs }
  | none =>
    if hasNull o then { ending := .crash .nullArgument, out := "", err := "", fs }
    else if !o.extra.isEmpty then
      { ending := .exit 2, out := "", err := shown [(UsageError.extraArguments o.extra).text], fs }
    else
      let s := setup env o
      match openLog s stamp fs with
      | none => { ending := .crash .logFile, out := "", err := "", fs }
      | some (journal, fs) => runLogged s stamp journal plugins fs o

/-- The command. -/
def run (env : Environment) (stamp : Stamp) (plugins : List Plugin) (fs : FileSystem)
    (args : List String) : Result :=
  match Options.parse args with
  | .error e => { ending := .exit 2, out := "", err := shown [e.text], fs }
  | .ok o => runOptions env stamp plugins fs o

end Stubsmith.CommandLine
