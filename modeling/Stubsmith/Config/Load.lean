import Stubsmith.Config.Find
import Stubsmith.Config.Settings
import Stubsmith.Logging.Record
import Stubsmith.Text.Lines

/-!
# Loading the configuration

A configuration file is a YAML mapping with the settings, or with a mapping of the settings under a
key of its own. A file that was named must be there; one that was searched for may be absent.
-/
namespace Stubsmith.Config

open Files (Path FileSystem FileError RealError)
open Yaml (Scalar Datum Document)

/-- What is wrong with a configuration file. -/
inductive ConfigError
  | notFound (p : Path)
  | unreadable (p : Path) (e : FileError)
  | notYaml (p : Path)
  | notMapping (p : Path) (typeName : String)
  | sectionNotMapping (p : Path)
  | invalid (p : Path) (issues : List Issue)
  deriving DecidableEq, Repr

/-- The message up to the details of a fault in the text or in the settings. -/
def ConfigError.message : ConfigError → String
  | notFound p => "Config file not found: " ++ p.text
  | unreadable p e => "Cannot read " ++ p.text ++ ": " ++ e.message
  | notYaml p => "Invalid YAML in " ++ p.text
  | notMapping p typeName => "Expected a YAML mapping in " ++ p.text ++ ", got " ++ typeName
  | sectionNotMapping p => "Expected a mapping under 'protostub' in " ++ p.text
  | invalid p _ => "Invalid generator configuration in " ++ p.text

/-- Why no configuration was loaded. Only the first kind is an answer to the file. -/
inductive LoadError
  | config (e : ConfigError)
  | search (e : SearchError)
  | notUtf8 (e : Text.Utf8Fault)
  | scalar (e : Yaml.Fault)
  deriving DecidableEq, Repr

def LoadError.message : LoadError → String
  | config e => e.message
  | search e => e.message
  | notUtf8 e => e.message
  | scalar e => e.message

/-- The key under which the settings may stand. -/
def sectionKey : String := "protostub"

/-- The document in the bytes of the file at `p`. -/
def readDocument (p : Path) (bytes : Text.Bytes) : Except LoadError (Option Document) :=
  match Text.decode bytes with
  | .error e => .error (.notUtf8 e)
  | .ok cs =>
    match Yaml.load (Text.unifyNewlines cs) with
    | .ok doc => .ok doc
    | .error .malformed => .error (.config (.notYaml p))
    | .error fault => .error (.scalar fault)

/-- The entries in which the settings stand. -/
def settingsEntries (p : Path) (doc : Document) : Except ConfigError (List (Scalar × Nat)) :=
  match doc.get doc.root with
  | .scalar .null => .ok []
  | .mapping es =>
    match lookup sectionKey es with
    | none => .ok es
    | some n =>
      match doc.get n with
      | .mapping inner => .ok inner
      | _ => .error (.sectionNotMapping p)
  | other => .error (.notMapping p other.typeName)

/-- The settings in the bytes of the file at `p`, with paths as they are written. -/
def settingsOf (p : Path) (bytes : Text.Bytes) : Except LoadError Settings := do
  match ← readDocument p bytes with
  | none => return {}
  | some doc =>
    let es ← (settingsEntries p doc).mapError .config
    (Settings.ofEntries doc es).mapError fun issues => .config (.invalid p issues)

/-- The settings of the file at `p`, which is there. -/
def loadFile (fs : FileSystem) (p : Path) : Except LoadError Settings := do
  let bytes ← (fs.readFile p).mapError fun e => .config (.unreadable p e)
  let settings ← settingsOf p bytes
  let base ← (fs.realPath p.parent).mapError fun e => .search (.real e)
  return settings.anchored base

/-- The file to load: the one that was named, or one that is found. -/
def choose (fs : FileSystem) (named : Option Path) (search : Bool) : Except LoadError (Option Path) :=
  match named with
  | none => if search then (find fs ⟨.here, []⟩).mapError .search else .ok none
  | some p =>
    match fs.isFile p with
    | .error e => .error (.search (.file e))
    | .ok false => .error (.config (.notFound p))
    | .ok true => .ok (some p)

/-- The record that is made before a file is loaded. -/
def begun (chosen : Option Path) : List LogRecord :=
  chosen.toList.map fun p => ⟨.debug, .configuration, "Loading generator config from " ++ p.text⟩

/-- The configuration in the file to load, with the record that is made after it; without a file it is
empty. -/
def loadChosen (fs : FileSystem) (chosen : Option Path) :
    Except LoadError Settings × List LogRecord :=
  match chosen with
  | none => (.ok {}, [])
  | some p =>
    match loadFile fs p with
    | .error e => (.error e, [])
    | .ok settings =>
      (.ok settings, [⟨.info, .configuration, "Loaded generator config from " ++ p.text⟩])

/-- The configuration, with the records of loading it. -/
def load (fs : FileSystem) (named : Option Path) (search : Bool) :
    Except LoadError Settings × List LogRecord :=
  match choose fs named search with
  | .error e => (.error e, [])
  | .ok chosen =>
    let (result, log) := loadChosen fs chosen
    (result, begun chosen ++ log)

end Stubsmith.Config
