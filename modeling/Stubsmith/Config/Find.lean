import Stubsmith.Files.Real

/-!
# Finding the configuration file

The file is looked for in a folder and in the folders above it, nearest first.
-/
namespace Stubsmith.Config

open Files (Path FileSystem FileError RealError)

def fileName : String := "protostub.yml"

/-- How many folders are looked at. -/
def searchLimit : Nat := 20

/-- Why a search had no result. -/
inductive SearchError
  | real (e : RealError)
  | file (e : FileError)
  deriving DecidableEq, Repr

def SearchError.message : SearchError → String
  | real e => e.message
  | file e => e.message

/-- The nearest configuration file in `folder` or above it, within `limit` folders. -/
def findAbove (fs : FileSystem) : (limit : Nat) → (folder : Path) → Except FileError (Option Path)
  | 0, _ => .ok none
  | limit + 1, folder => do
    let candidate := folder.child fileName
    if ← fs.isFile candidate then return some candidate
    else if folder.parent = folder then return none
    else findAbove fs limit folder.parent

/-- The nearest configuration file in the folder at a path or above it. -/
def find (fs : FileSystem) (start : Path) : Except SearchError (Option Path) :=
  match fs.realPath start with
  | .error e => .error (.real e)
  | .ok folder => (findAbove fs searchLimit folder).mapError .file

end Stubsmith.Config
