import Stubsmith.CommandLine.Suggestion
import Stubsmith.Text.Blank
import Stubsmith.Text.Quoted

/-!
# Options

The options of the command line. A short option may share its dash with others, and a value may follow
its option at once or as the next argument, whatever that looks like. Of several values the last
counts. Two dashes by themselves end the options.
-/
namespace Stubsmith.CommandLine

/-- The options that take a value. -/
inductive ValueOption
  | input
  | out
  | writer
  | config
  deriving DecidableEq, Repr

/-- The options without a value. -/
inductive Switch
  | version
  | help
  | recursive
  | flat
  | listWriters
  | json
  | verbose
  | quiet
  | debug
  deriving DecidableEq, Repr

inductive OptionKind
  | value (o : ValueOption)
  | switch (s : Switch)
  deriving DecidableEq, Repr

def longOptions : List (String × OptionKind) :=
  [("--version", .switch .version), ("--proto", .value .input), ("--recursive", .switch .recursive),
   ("--no-recursive", .switch .flat), ("--out", .value .out), ("--writer", .value .writer),
   ("--config", .value .config), ("--list-writers", .switch .listWriters),
   ("--json-output", .switch .json), ("--json", .switch .json), ("--verbose", .switch .verbose),
   ("--quiet", .switch .quiet), ("--debug", .switch .debug), ("--help", .switch .help)]

def shortOptions : List (Char × OptionKind) :=
  [('p', .value .input), ('r', .switch .recursive), ('o', .value .out), ('w', .value .writer),
   ('c', .value .config), ('l', .switch .listWriters), ('v', .switch .verbose), ('q', .switch .quiet),
   ('h', .switch .help)]

/-- What ends the command before it begins: help or the version, whichever is asked for first. -/
inductive Notice
  | help
  | version
  deriving DecidableEq, Repr

/-- The options that were given. -/
structure Options where
  input : Option String := none
  out : Option String := none
  writer : Option String := none
  config : Option String := none
  recursive : Option Bool := none
  listWriters : Bool := false
  json : Bool := false
  verbose : Bool := false
  quiet : Bool := false
  debug : Bool := false
  notice : Option Notice := none
  /-- The arguments that belong to no option. -/
  extra : List String := []
  deriving DecidableEq, Repr

namespace Options

def setValue (o : Options) (v : String) : ValueOption → Options
  | .input => { o with input := some v }
  | .out => { o with out := some v }
  | .writer => { o with writer := some v }
  | .config => { o with config := some v }

def setSwitch (o : Options) : Switch → Options
  | .version => { o with notice := o.notice.or (some .version) }
  | .help => { o with notice := o.notice.or (some .help) }
  | .recursive => { o with recursive := some true }
  | .flat => { o with recursive := some false }
  | .listWriters => { o with listWriters := true }
  | .json => { o with json := true }
  | .verbose => { o with verbose := true }
  | .quiet => { o with quiet := true }
  | .debug => { o with debug := true }

end Options

/-- Why the arguments cannot be used. -/
inductive UsageError
  /-- An unknown option, with the options that may be meant. -/
  | noSuchOption (name : String) (close : List String)
  | needsValue (name : String)
  | takesNoValue (name : String)
  | extraArguments (args : List String)
  | missingOption (short long : String)
  deriving DecidableEq, Repr

namespace UsageError

/-- The question behind the name of an unknown option. -/
def question : List String → String
  | [] => ""
  | [name] => " Did you mean " ++ Text.quoted name ++ "?"
  | names => " (Did you mean one of: " ++ String.intercalate ", " (names.map Text.quoted) ++ "?)"

def message : UsageError → String
  | noSuchOption name close => "No such option " ++ Text.quoted name ++ "." ++ question close
  | needsValue name => "Option " ++ Text.quoted name ++ " requires an argument."
  | takesNoValue name => "Option " ++ Text.quoted name ++ " does not take a value."
  | extraArguments args =>
    "Got unexpected extra argument" ++ (if args.length = 1 then "" else "s") ++ " ("
      ++ String.intercalate " " args ++ ")"
  | missingOption short long => "Missing option '" ++ short ++ "' / '" ++ long ++ "'."

/-- The message comes after a reminder of how the command is used. -/
def showsUsage : UsageError → Bool
  | needsValue _ => false
  | takesNoValue _ => false
  | _ => true

end UsageError

/-- The arguments read so far: the options in them, and what the next argument belongs to. -/
structure Reading where
  options : Options := {}
  /-- An option whose value is the next argument, and how it was written. -/
  pending : Option (String × ValueOption) := none
  /-- No more options follow. -/
  ended : Bool := false

/-- The options in a cluster of letters behind one dash. -/
def readCluster (r : Reading) : List Char → Except UsageError Reading
  | [] => .ok r
  | c :: cs =>
    let name := String.ofList ['-', c]
    match shortOptions.lookup c with
    | none => .error (.noSuchOption name [])
    | some (.switch s) => readCluster { r with options := r.options.setSwitch s } cs
    | some (.value o) =>
      if cs.isEmpty then .ok { r with pending := some (name, o) }
      else .ok { r with options := r.options.setValue (String.ofList cs) o }

/-- A long option by its name, with the value behind its equals sign. -/
def readLong (r : Reading) (name : String) (value : Option String) :
    OptionKind → Except UsageError Reading
  | .switch s =>
    if value.isSome then .error (.takesNoValue name)
    else .ok { r with options := r.options.setSwitch s }
  | .value o =>
    match value with
    | some v => .ok { r with options := r.options.setValue v o }
    | none => .ok { r with pending := some (name, o) }

/-- An argument that begins with a dash and is longer than it. -/
def readOption (r : Reading) (arg : List Char) : Except UsageError Reading :=
  let name := String.ofList (arg.takeWhile (· != '='))
  let value := match arg.dropWhile (· != '=') with
    | [] => none
    | _ :: v => some (String.ofList v)
  match longOptions.lookup name with
  | some kind => readLong r name value kind
  | none =>
    if ['-', '-'].isPrefixOf arg then
      .error (.noSuchOption name (suggestions (longOptions.map (·.1)) name))
    else readCluster r arg.tail

/-- One more argument. -/
def readArgument (r : Reading) (arg : String) : Except UsageError Reading :=
  let extra : Reading := { r with options := { r.options with extra := r.options.extra ++ [arg] } }
  match r.pending with
  | some (_, o) => .ok { r with options := r.options.setValue arg o, pending := none }
  | none =>
    if r.ended then .ok extra
    else if arg = "--" then .ok { r with ended := true }
    else match arg.toList with
      | '-' :: c :: cs => readOption r ('-' :: c :: cs)
      | _ => .ok extra

/-- The options in a list of arguments. -/
def Options.parse (args : List String) : Except UsageError Options := do
  let r ← args.foldlM readArgument {}
  match r.pending with
  | some (name, _) => .error (.needsValue name)
  | none => return r.options

def usage : String := "Usage: protostub [OPTIONS]\n"

def hint : String := "Try 'protostub --help' for help.\n"

def version : String := "protostub, version 0.1.0\n"

def help : String := usage ++ "
  protostub — generate service stubs from proto3 files.

Options:
  --version                       Show the version and exit.
  -p, --proto PATH                Proto file or folder with proto files.
  -r, --recursive / --no-recursive
                                  Recursive file search in proto folder
                                  (overrides the config file).
  -o, --out PATH                  Output folder (created if missing).
  -w, --writer TEXT               Short class name of service writer.
  -c, --config PATH               Path to protostub.yml (default: auto-detect).
  -l, --list-writers              List available writers and exit.
  --json-output, --json           Output as JSON.
  -v, --verbose                   Enable verbose output.
  -q, --quiet                     Suppress non-essential output.
  --debug                         Enable debug logging (very verbose).
  -h, --help                      Show this message and exit.
"

/-- What is shown for arguments that cannot be used. -/
def UsageError.text (e : UsageError) : String :=
  (if e.showsUsage then usage ++ hint ++ "\n" else "") ++ "Error: " ++ e.message ++ "\n"

end Stubsmith.CommandLine
