import Stubsmith.Files.Real
import Stubsmith.Logging.Record

/-!
# Discovery of input files

Every file under a folder is a candidate. Entries are visited in the order of their names, folders
below only on request. A root that is a file stands for itself.
-/
namespace Stubsmith.Files

/-- Why no files were found. -/
inductive DiscoveryError
  | missing (root : Path)
  | file (e : FileError)
  | real (e : RealError)
  deriving DecidableEq, Repr

def DiscoveryError.message : DiscoveryError → String
  | missing root => "Can not find file or folder by path: " ++ root.text
  | file e => e.message
  | real e => e.message

/-- The files found, or what ended the search, with the records of it. -/
structure Discovered where
  result : Except DiscoveryError (List Path)
  log : List LogRecord

namespace Discovered

/-- One search after the other; the second takes place only if the first succeeds. -/
def andThen (a : Discovered) (b : Unit → Discovered) : Discovered :=
  match a.result with
  | .error e => ⟨.error e, a.log⟩
  | .ok files =>
    let next := b ()
    ⟨next.result.map (files ++ ·), a.log ++ next.log⟩

end Discovered

namespace FileSystem

/-- What one entry of a folder contributes; `descend` searches a folder below. -/
def candidate (fs : FileSystem) (descend : Path → Discovered) (recursive : Bool) (p : Path) :
    Discovered :=
  match fs.isFile p with
  | .error e => ⟨.error (.file e), []⟩
  | .ok true => ⟨.ok [p], [⟨.info, .discovery, "Found proto file candidate: " ++ p.text⟩]⟩
  | .ok false =>
    match fs.isFolder p with
    | .error e => ⟨.error (.file e), []⟩
    | .ok below => if below && recursive then descend p else ⟨.ok [], []⟩

/-- What the entries of a folder contribute, in order. -/
def candidates (fs : FileSystem) (descend : Path → Discovered) (recursive : Bool) :
    List Path → Discovered
  | [] => ⟨.ok [], []⟩
  | p :: ps => (fs.candidate descend recursive p).andThen fun _ => fs.candidates descend recursive ps

/-- The files in a folder. With each level the path grows; a path longer than a file system takes is
refused before the levels run out. -/
def filesIn (fs : FileSystem) (recursive : Bool) : (levels : Nat) → Path → Discovered
  | 0, folder => ⟨.error (.file (.onPath .nameTooLong folder)), []⟩
  | levels + 1, folder =>
    match fs.list folder with
    | .error e => ⟨.error (.file e), []⟩
    | .ok names => fs.candidates (fs.filesIn recursive levels) recursive (names.map folder.child)

/-- The search below a root whose kind is known; the record shows the real path. -/
def discoverAs (fs : FileSystem) (root : Path) (label : String) (search : Unit → Discovered) :
    Discovered :=
  match fs.realPath root with
  | .error e => ⟨.error (.real e), []⟩
  | .ok real =>
    let found := search ()
    { found with log := ⟨.debug, .discovery, label ++ real.text⟩ :: found.log }

/-- The input files under a root. -/
def discover (fs : FileSystem) (root : Path) (recursive : Bool) : Discovered :=
  match fs.isFile root with
  | .error e => ⟨.error (.file e), []⟩
  | .ok true => fs.discoverAs root "Loaded single file. Path = " fun _ => ⟨.ok [root], []⟩
  | .ok false =>
    match fs.isFolder root with
    | .error e => ⟨.error (.file e), []⟩
    | .ok true =>
      fs.discoverAs root "Loaded directory. Path = " fun _ => fs.filesIn recursive pathLimit root
    | .ok false => ⟨.error (.missing root), []⟩

end FileSystem

end Stubsmith.Files
