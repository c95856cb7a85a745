import Stubsmith.Files.FileSystem
import Stubsmith.Text.Quoted
import Stubsmith.Writer.Python
import Stubsmith.Writer.Recorder

/-!
# The registry of writers

Writers are known by name and made by factories. The registry keeps the factories in the order in
which their names came in; a name that is registered again keeps its place. Plugins offer further
factories, some of which cannot be loaded.
-/
namespace Stubsmith

open Files (FileSystem)
open Text (CodePoint)

/-- Makes a writer. A factory may have no name of its own, may fail, and may change files. -/
structure Factory where
  name : String
  typeName : String
  module : String
  description : String
  /-- How the factory is shown. -/
  shown : String
  make : FileSystem → Except String Writer × FileSystem

namespace Factory

/-- A factory that always hands out the same writer. -/
def constant (typeName module description : String) (w : Writer) : Factory where
  name := typeName
  typeName := typeName
  module := module
  description := description
  shown := "<class '" ++ module ++ "." ++ typeName ++ "'>"
  make fs := (.ok w, fs)

def python : Factory :=
  constant Python.writer.name "protostub.adapters.writers.python" Python.writer.description
    Python.writer

def recorder : Factory :=
  constant (Recorder.writer {}).name "protostub.adapters.mock" (Recorder.writer {}).description
    (Recorder.writer {})

end Factory

/-- An installed plugin: what loading it gives, or why it cannot be loaded. -/
structure Plugin where
  name : String
  value : String
  group : String
  load : Except String Factory

/-- The group of the plugins that are writers. -/
def Plugin.writerGroup : String := "protostub.writers"

structure Registry where
  entries : List (String × Factory)

/-- A factory without a name was registered without one. -/
structure Unnamed where
  factory : Factory

def Unnamed.message (e : Unnamed) : String := "Cannot derive a writer name from " ++ e.factory.shown

namespace Registry

def empty : Registry := ⟨[]⟩

/-- The names in the order of registration. -/
def names (r : Registry) : List String := r.entries.map (·.1)

def get? (r : Registry) (name : String) : Option Factory :=
  (r.entries.find? (·.1 == name)).map (·.2)

/-- The entries with the factory under the name, in its old place if it has one, else at the end. -/
def put (name : String) (f : Factory) : List (String × Factory) → List (String × Factory)
  | [] => [(name, f)]
  | e :: es => if e.1 = name then (name, f) :: es else e :: put name f es

/-- Registers a factory, under its own name if no other is given. -/
def register (r : Registry) (f : Factory) (name : Option String) :
    Except Unnamed (Registry × List LogRecord) :=
  let given := name.getD ""
  let key := if given = "" then f.name else given
  if key = "" then .error ⟨f⟩
  else
    let warnings := if r.names.contains key then
        [⟨.warning, .registry, "Overwriting existing writer: " ++ key⟩] else []
    .ok (⟨put key f r.entries⟩, warnings ++ [⟨.debug, .registry, "Registered writer: " ++ key⟩])

def unregister (r : Registry) (name : String) : Registry := ⟨r.entries.filter (·.1 != name)⟩

/-- What is known of a registered writer. -/
structure Status where
  name : String
  typeName : String
  module : String
  description : String
  deriving DecidableEq, Repr

def status (r : Registry) : List Status :=
  r.entries.map fun (n, f) => ⟨n, f.typeName, f.module, f.description⟩

/-- What came of loading plugins: the registry, how many writers it gained, and perhaps the plugin
that ended it. -/
structure Loaded where
  registry : Registry
  added : Nat
  failure : Option Unnamed
  log : List LogRecord

/-- Loads the plugins in the given order. A name that is taken keeps its factory. -/
def loadEach (r : Registry) : List Plugin → Loaded
  | [] => ⟨r, 0, none, []⟩
  | p :: ps =>
    match p.load with
    | .error reason =>
      let rest := loadEach r ps
      { rest with log := ⟨.error, .registry, "Can not load writer plugin " ++ p.name ++ " (" ++ p.value
          ++ "): " ++ reason⟩ :: rest.log }
    | .ok f =>
      let name := if f.name = "" then p.name else f.name
      if r.names.contains name then
        let rest := loadEach r ps
        { rest with log := ⟨.debug, .registry, "Writer " ++ name
            ++ " already registered, ignoring plugin " ++ p.value⟩ :: rest.log }
      else
        match r.register f (some name) with
        | .error e => ⟨r, 0, some e, []⟩
        | .ok (r', log) =>
          let rest := loadEach r' ps
          { rest with added := rest.added + 1, log := log ++ rest.log }

/-- Loads the plugins of a group in the order of their names. -/
def loadPlugins (r : Registry) (plugins : List Plugin) (group : String) : Loaded :=
  r.loadEach ((plugins.filter (·.group == group)).mergeSort fun a b => decide (a.name ≤ b.name))

/-- The bundled writers, then the installed ones. -/
def default (plugins : List Plugin) : Loaded :=
  let bundled : Registry := ⟨[(Factory.python.name, .python)]⟩
  let loaded := bundled.loadPlugins plugins Plugin.writerGroup
  { loaded with
    log := ⟨.debug, .registry, "Registered writer: " ++ Factory.python.name⟩ :: loaded.log }

/-- The names as they are shown in a message. -/
def shownNames (names : List String) : String :=
  "[" ++ String.intercalate ", " (names.map Text.quoted) ++ "]"

/-- The factory for a run: the one with the name, or without a name the first one. No factory has half
characters in its name. -/
def select (r : Registry) (name : Option (List CodePoint)) : Option Factory × List LogRecord :=
  let given := name.getD []
  if given ≠ [] then
    match (Text.plain? given).bind r.get? with
    | some f => (some f, [])
    | none => (none, [⟨.debug, .registry,
        "No writer named " ++ given ++ " (known: " ++ shownNames r.names ++ ")"⟩])
  else
    match r.entries with
    | [] => (none, [])
    | (first, f) :: others =>
      (some f, if others.isEmpty then [] else
        [⟨.warning, .registry, "No writer selected; " ++ Text.decimal r.entries.length
          ++ " registered (" ++ String.intercalate ", " r.names ++ "), using " ++ first⟩])

end Registry

end Stubsmith
