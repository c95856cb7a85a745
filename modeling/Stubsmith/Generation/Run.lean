import Stubsmith.Files.Route
import Stubsmith.Generation.Generate
import Stubsmith.Writer.Registry

/-!
# Runs

A run checks its input and its output folder, picks a writer and generates. The checks come first, in
a fixed order, and a check that fails ends the run with a message and without a report. Its records are
noted in the log file, if there is one.
-/
namespace Stubsmith.Generation

open Files (Path Route FileSystem FileError)
open Logging (Journal note still)
open Text (CodePoint)

/-- What a run is asked to do. -/
structure Request where
  input : Route
  out : Route
  writer : Option (List CodePoint) := none
  recursive : Bool := false
  deriving Repr

/-- Why a run was refused. -/
inductive Refusal
  | inputMissing (input : Route)
  | outputIsFile (out : Route)
  | writerUnknown (name : List CodePoint) (known : List String)
  | noWriters
  | outputFolder (out : Route) (e : FileError)
  | vanished (abort : Abort)
  deriving DecidableEq, Repr

def Refusal.message : Refusal → List CodePoint
  | inputMissing r => "Can not find file or folder by path: " ++ r.text
  | outputIsFile r => "Output path is file. Output path: " ++ r.text
  | writerUnknown name known =>
    let all := String.intercalate ", " known
    "Can not find service writer. Writer class: " ++ name ++ " (known: "
      ++ (if all = "" then "none registered" else all) ++ ")"
  | noWriters => "Can not find service writer. No writers are registered"
  | outputFolder r e => "Can not create output folder by path: " ++ r.text ++ ": " ++ e.message
  | vanished abort => abort.message

/-- The result of a run: its writer, once there is one, and its report, or why it was refused. -/
structure RunResult where
  request : Request
  writer : Option Writer := none
  report : Except Refusal Report

/-- The run was not refused. -/
def RunResult.ok (r : RunResult) : Bool :=
  match r.report with
  | .ok _ => true
  | .error _ => false

/-- The refusal of a request for which no writer is known. -/
def unresolved (registry : Registry) (writer : Option (List CodePoint)) : Refusal :=
  let name := writer.getD []
  if name = [] then .noWriters else .writerUnknown name registry.names

/-- Generates from the input at a path with a writer in hand. -/
def runWith (journal : Option Journal) (fs : FileSystem) (req : Request) (input : Path) (w : Writer) :
    Done RunResult :=
  let refused (r : Refusal) : RunResult := ⟨req, some w, .error r⟩
  match req.out.path? with
  | none => { result := .error (.noPath req.out), fs }
  | some out =>
    match fs.ensureFolder out with
    | (.error .nullCharacter, fs') => { result := .error (.file .nullCharacter), fs := fs' }
    | (.error e, fs') => { result := .ok (refused (.outputFolder req.out e)), fs := fs' }
    | (.ok (), fs') =>
      let done := generate journal fs' input out req.recursive w
      let result := match done.result with
        | .ok report => .ok ⟨req, some w, .ok report⟩
        | .error abort => if abort.isMissing then .ok (refused (.vanished abort)) else .error abort
      { result, fs := done.fs, log := done.log, calls := done.calls }

/-- The output is there and is no folder. -/
def blocked (fs : FileSystem) (out : Route) : Except FileError Bool :=
  match out.path? with
  | none => .ok false
  | some p => do
    if ← fs.exists? p then return !(← fs.isFolder p) else return false

/-- Picks a writer and generates. A factory may remove the log file. -/
def runFrom (journal : Option Journal) (fs : FileSystem) (registry : Registry) (req : Request)
    (input : Path) : Done RunResult :=
  match registry.select req.writer with
  | (none, log) =>
    { result := .ok ⟨req, none, .error (unresolved registry req.writer)⟩
      fs := note journal log fs
      log }
  | (some factory, log) =>
    match factory.make (note journal log fs) with
    | (.error m, fs') => { result := .error (.factory m), fs := fs', log }
    | (.ok w, fs') =>
      let journal := still journal fs'
      let picked : List LogRecord := [⟨.info, .running, "Using writer " ++ w.name⟩]
      let done := runWith journal (note journal picked fs') req input w
      { done with log := log ++ picked ++ done.log }

/-- The writers of a run: a given registry, or the bundled writers and the installed plugins. -/
inductive WriterSource
  | registry (r : Registry)
  | installed (plugins : List Plugin)

/-- Carries out a request from the input at a path, which is there. -/
def runInput (journal : Option Journal) (fs : FileSystem) (source : WriterSource) (req : Request)
    (input : Path) : Done RunResult :=
  match blocked fs req.out with
  | .error e => { result := .error (.file e), fs }
  | .ok true => { result := .ok ⟨req, none, .error (.outputIsFile req.out)⟩, fs }
  | .ok false =>
    match source with
    | .registry r => runFrom journal fs r req input
    | .installed plugins =>
      let loaded := Registry.default plugins
      let noted := note journal loaded.log fs
      match loaded.failure with
      | some e => { result := .error (.registry e.message), fs := noted, log := loaded.log }
      | none =>
        let done := runFrom journal noted loaded.registry req input
        { done with log := loaded.log ++ done.log }

/-- Carries out a request. An input that is no path is missing. -/
def run (journal : Option Journal) (fs : FileSystem) (source : WriterSource) (req : Request) :
    Done RunResult :=
  let missing : Done RunResult := { result := .ok ⟨req, none, .error (.inputMissing req.input)⟩, fs }
  match req.input.path? with
  | none => missing
  | some input =>
    match fs.exists? input with
    | .error e => { result := .error (.file e), fs }
    | .ok false => missing
    | .ok true => runInput journal fs source req input

end Stubsmith.Generation
