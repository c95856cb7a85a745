import Stubsmith.Files.Discovery
import Stubsmith.Files.Route
import Stubsmith.Generation.Report
import Stubsmith.Generation.Source
import Stubsmith.Generation.Target
import Stubsmith.Logging.Journal

/-!
# Generation

Each input file is read, its services are written to a new stub file, and its outcome is noted. A stub
file that exists is never touched, and one that could not be finished is removed again. What goes
wrong with one file does not keep the others from being processed; only a path that the file system
cannot judge ends the run. An input file may be the log file of the run itself, so the records of one
file are noted there before the next one is read.
-/
namespace Stubsmith.Generation

open Files (Path Route FileSystem FileError RealError DiscoveryError)
open Logging (Journal note)

/-- What can end a run. -/
inductive Abort
  | discovery (e : DiscoveryError)
  | file (e : FileError)
  | real (e : RealError)
  | outside (e : Outside)
  | noPath (route : Route)
  | invalid (issues : List Issue)
  | factory (message : String)
  | registry (message : String)
  deriving DecidableEq, Repr

def Abort.message : Abort → String
  | discovery e => e.message
  | file e => e.message
  | real e => e.message
  | outside e => e.message
  | noPath route => route.refusal
  | invalid issues => String.intercalate "\n" (issues.map (·.kind.message))
  | factory m => m
  | registry m => m

/-- The abort says that something is missing. -/
def Abort.isMissing : Abort → Bool
  | discovery (.missing _) => true
  | discovery (.file (.onPath .missing _)) => true
  | discovery (.real .workingFolderLost) => true
  | file (.onPath .missing _) => true
  | real .workingFolderLost => true
  | _ => false

/-- What a piece of work did: its result, the files after it, its records, and the requests that a
recording writer has seen. -/
structure Done (α : Type) where
  result : Except Abort α
  fs : FileSystem
  log : List LogRecord := []
  calls : List WriteCall := []

def existsRecord (out : Path) : LogRecord :=
  ⟨.info, .generation, "Output file already exists, leaving it untouched: " ++ out.text⟩

/-- Removes a stub file that was begun and could not be finished. -/
def discard (fs : FileSystem) (out : Path) : FileSystem × List LogRecord :=
  match fs.unlink out with
  | .ok fs' => (fs', [])
  | .error e => (fs, [⟨.warning, .generation,
      "Can not remove incomplete output file " ++ out.text ++ ": " ++ e.message⟩])

/-- The new stub file of an input, or the fault that kept it from being made; `none` if something
stands in its place. The folders above it are made on the way. -/
def openOutput (fs : FileSystem) (out : Path) :
    Except FileError (Option Files.Location) × FileSystem :=
  match fs.ensureFolder out.parent with
  | (.error e, fs') => (.error e, fs')
  | (.ok (), fs') =>
    match fs'.createFile out with
    | .ok (loc, fs'') => (.ok (some loc), fs'')
    | .error (.onPath .taken _) => (.ok none, fs')
    | .error e => (.error e, fs')

/-- Lets the writer fill the new file at `loc`, which `out` leads to. -/
def fill (fs : FileSystem) (input out : Path) (loc : Files.Location) (w : Writer)
    (services : List Service) : Done Outcome :=
  let base := baseName input
  let emitted := w.emitAll base (w.fileName base) [] services
  let written := fs.append loc emitted.appended
  let after := if emitted.removesFile then written.erase loc else written
  match emitted.failure with
  | some failure =>
    let (cleaned, log) := discard after out
    { result := .ok { input, status := .writeError, output := some out, services := services.length,
                      error := some failure.message }
      fs := cleaned
      log := emitted.log ++ ⟨.failure, .generation,
        "Can not write service description to file by path '" ++ out.text ++ "'"⟩ :: log
      calls := emitted.recorded }
  | none =>
    match after.realPath out with
    | .error e => { result := .error (.real e), fs := after, log := emitted.log
                    calls := emitted.recorded }
    | .ok real =>
      { result := .ok { input, status := .generated, output := some out, services := services.length }
        fs := after
        log := emitted.log ++ [⟨.info, .generation,
          "Generated service file by path = " ++ real.text⟩]
        calls := emitted.recorded }

/-- Writes the services of an input to its stub file, unless something stands there already. -/
def writeServices (fs : FileSystem) (input out : Path) (w : Writer) (services : List Service) :
    Done Outcome :=
  let left : Outcome := { input, status := .existing, output := some out, services := services.length }
  match fs.exists? out with
  | .error e => { result := .error (.file e), fs }
  | .ok true => { result := .ok left, fs, log := [existsRecord out] }
  | .ok false =>
    match openOutput fs out with
    | (.error .nullCharacter, fs') => { result := .error (.file .nullCharacter), fs := fs' }
    | (.error e, fs') =>
      { result := .ok { left with status := .createError, error := some e.message }
        fs := fs'
        log := [⟨.error, .generation, "Can not create output file for file '" ++ input.text
          ++ "'. Output path: '" ++ out.text ++ "': " ++ e.message⟩] }
    | (.ok none, fs') => { result := .ok left, fs := fs', log := [existsRecord out] }
    | (.ok (some loc), fs') => fill fs' input out loc w services

/-- Processes one input file. -/
def generateFile (fs : FileSystem) (root out input : Path) (w : Writer) : Done Outcome :=
  match servicesOf fs input with
  | (.error .nullCharacter, log) => { result := .error (.file .nullCharacter), fs, log }
  | (.error (.invalid issues), log) => { result := .error (.invalid issues), fs, log }
  | (.error (.parse e), log) =>
    { result := .ok { input, status := .parseError, error := some e.message }
      fs
      log := log ++ [⟨.error, .generation,
        "Can not parse proto file by path: " ++ input.text ++ ": " ++ e.text⟩] }
  | (.ok [], log) =>
    { result := .ok { input, status := .noServices }
      fs
      log := log ++ [⟨.warning, .generation, "Can not find services in file by path: " ++ input.text
        ++ ". File will not be created"⟩] }
  | (.ok services, log) =>
    match outputPath input root out w with
    | .error e => { result := .error (.outside e), fs, log }
    | .ok target =>
      let done := writeServices fs input target w services
      { done with log := log ++ done.log }

/-- Processes input files in order, noting the records of each. -/
def generateEach (journal : Option Journal) (root out : Path) (w : Writer) :
    FileSystem → List Path → Done (List Outcome)
  | fs, [] => { result := .ok [], fs }
  | fs, input :: inputs =>
    let first := generateFile fs root out input w
    let noted := note journal first.log first.fs
    match first.result with
    | .error e => { result := .error e, fs := noted, log := first.log, calls := first.calls }
    | .ok o =>
      let others := generateEach journal root out w noted inputs
      { result := others.result.map (o :: ·)
        fs := others.fs
        log := first.log ++ others.log
        calls := first.calls ++ others.calls }

/-- The closing line of a run. -/
def summary (r : Report) : LogRecord :=
  let parts := r.sortedCounts.map fun (s, n) => s.code ++ "=" ++ Text.decimal n
  let all := String.intercalate ", " parts
  ⟨.info, .generation, "Processed " ++ Text.decimal r.total ++ " files: "
    ++ if all = "" then "nothing" else all⟩

/-- Processes every input file under the root, noting the records of it. -/
def generate (journal : Option Journal) (fs : FileSystem) (root out : Path) (recursive : Bool)
    (w : Writer) : Done Report :=
  match fs.exists? root with
  | .error e => { result := .error (.file e), fs }
  | .ok false => { result := .error (.discovery (.missing root)), fs }
  | .ok true =>
    let found := fs.discover root recursive
    match found.result with
    | .error e =>
      { result := .error (.discovery e), fs := note journal found.log fs, log := found.log }
    | .ok inputs =>
      let warnings := if inputs.isEmpty then
          [⟨.warning, .generation, "Can not find proto files in " ++ root.text⟩] else []
      let begun := found.log ++ warnings
      let done := generateEach journal root out w (note journal begun fs) inputs
      match done.result with
      | .error e => { result := .error e, fs := done.fs, log := begun ++ done.log, calls := done.calls }
      | .ok outcomes =>
        { result := .ok ⟨outcomes⟩
          fs := note journal [summary ⟨outcomes⟩] done.fs
          log := begun ++ done.log ++ [summary ⟨outcomes⟩]
          calls := done.calls }

end Stubsmith.Generation
