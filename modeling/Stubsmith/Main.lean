import Std.Time.Format
import Stubsmith.CommandLine.Run

/-!
# The program

Carries the command out on the disk: the parts of the disk that the command can reach are read, the
command is run on them, and what it changed is written back.
-/
namespace Stubsmith.Disk

open Files (Path FileSystem Location Entry)
open CommandLine (Environment Options)

/-- The location of a path on the disk. -/
def locationOf (text : String) : Location := (Path.ofString text).parts

/-- The text of a location. -/
def textOf (loc : Location) : String := (FileSystem.pathOf loc).text

/-- The locations from the root down to a location. -/
def downTo (loc : Location) : List Location := (List.range (loc.length + 1)).map loc.take

/-- Adds the folders down to a location. -/
def withFolders (fs : FileSystem) (loc : Location) : FileSystem :=
  (downTo loc).foldl (fun fs above => if above.isEmpty then fs else fs.set above .folder) fs

/-- Adds what stands on the disk at an entry, and below it if it is a folder. -/
partial def readEntry (fs : FileSystem) (e : IO.FS.DirEntry) : IO FileSystem := do
  let loc := locationOf e.path.toString
  if ← e.path.isDir then
    (← e.path.readDir).foldlM readEntry (fs.set loc .folder)
  else if ← e.path.pathExists then
    match (← e.path.metadata).type with
    | .file => return fs.set loc (.file (← IO.FS.readBinFile e.path).data.toList)
    | _ => return fs.set loc .device
  else return fs

/-- Adds what stands on the disk at a path, with the folders above it. -/
def readPath (fs : FileSystem) (p : Path) : IO FileSystem := do
  let loc := (fs.plainPath p).parts
  let e : IO.FS.DirEntry := ⟨← IO.currentDir, textOf loc⟩
  if ← e.path.pathExists then readEntry (withFolders fs loc.dropLast) e else return fs

/-- The configuration files that a search can find. -/
def candidates (here : Location) : List Path :=
  (downTo here).map fun folder => (FileSystem.pathOf folder).child Config.fileName

/-- The paths that the command can reach. -/
def reachable (env : Environment) (o : Options) (fs : FileSystem) : List Path :=
  let settings := (Config.load fs (o.config.map Path.ofString) true).1.toOption.getD {}
  [(o.input.map Path.ofString).or (settings.input.bind (·.path?)),
    (o.out.map Path.ofString).or (settings.out.bind (·.path?)),
    (env.logFile.bind Logging.resolve?).map Path.ofString].filterMap id

/-- The part of the disk that the command can reach. -/
def snapshot (env : Environment) (o : Options) : IO FileSystem := do
  let here := locationOf (← IO.currentDir).toString
  let start := withFolders { entries := [], here } here
  let files ← ((o.config.map Path.ofString).toList ++ candidates here).foldlM readPath start
  (reachable env o files).foldlM readPath files

/-- Writes one entry to the disk. -/
def writeEntry (loc : Location) : Entry → IO Unit
  | .folder => IO.FS.createDirAll (textOf loc)
  | .file bytes => IO.FS.writeBinFile (textOf loc) ⟨bytes.toArray⟩
  | .link _ | .device => return ()

/-- Writes what changed to the disk, the folders before what is in them. -/
def writeBack (before after : FileSystem) : IO Unit := do
  let changed := after.entries.filter fun (loc, e) => before.get? loc ≠ some e
  for (loc, e) in changed.mergeSort fun a b => decide (a.1.length ≤ b.1.length) do
    writeEntry loc e
  for (loc, _) in before.entries.filter fun (loc, _) => (after.get? loc).isNone do
    IO.FS.removeFile (textOf loc)

/-- The time now, as the console and the log file show it. -/
def stamp : IO Logging.Stamp := do
  let now ← Std.Time.PlainDateTime.now
  return ⟨now.format "HH:mm:ss", now.format "uuuu-MM-dd HH:mm:ss", "0", "  (see the report)"⟩

def environment : IO Environment := do
  return { logLevel := ← IO.getEnv "PROTOSTUB_LOG_LEVEL", logFile := ← IO.getEnv "PROTOSTUB_LOG_FILE"
           logFileLevel := ← IO.getEnv "PROTOSTUB_LOG_FILE_LEVEL" }

end Stubsmith.Disk

open Stubsmith in
/-- The command line of the program. -/
def main (args : List String) : IO UInt32 := do
  let env ← Disk.environment
  let before ← Disk.snapshot env ((CommandLine.Options.parse args).toOption.getD {})
  let r := CommandLine.run env (← Disk.stamp) [] before args
  Disk.writeBack before r.fs
  IO.print r.out
  IO.eprint r.err
  match r.ending with
  | .crash c => IO.eprintln c.message
  | .exit _ => pure ()
  return r.ending.code.toUInt32
