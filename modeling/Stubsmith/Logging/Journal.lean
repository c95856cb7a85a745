import Stubsmith.Files.FileSystem
import Stubsmith.Logging.Setup

/-!
# The log file

A log file is held open while the command goes on, and each record is in it before anything else is
done. A file that is removed meanwhile takes its records with it: the log does not go on in another one
that is made in its place.
-/
namespace Stubsmith.Logging

open Files (FileSystem Location)

/-- An open log file. -/
structure Journal where
  location : Location
  threshold : Int
  stamp : Stamp

/-- The files with some records noted in the log file, if there is one. -/
def note (journal : Option Journal) (log : List LogRecord) (fs : FileSystem) : FileSystem :=
  match journal with
  | none => fs
  | some j => fs.append j.location (Text.encode (fileText j.threshold j.stamp log).toList)

@[simp] theorem note_none (log : List LogRecord) (fs : FileSystem) : note none log fs = fs := rfl

/-- The log file after a piece of work that may have removed it. -/
def still (journal : Option Journal) (fs : FileSystem) : Option Journal :=
  journal.filter fun j => (fs.get? j.location).isSome

@[simp] theorem still_none (fs : FileSystem) : still none fs = none := rfl

end Stubsmith.Logging
