import Stubsmith.Files.Real

/-!
# Files to append to

A file that is opened for appending is made if nothing stands at its path. A link that leads nowhere
is followed, and the file is made where it points to.
-/
namespace Stubsmith.Files.FileSystem

/-- The path of the target of a link in a folder. -/
def targetPath (folder : Place) (target : String) : Path :=
  (pathOf folder.location).join (Path.ofString target)

/-- The target of a link ends with a name, so that a file can be made there. -/
def namesFile (target : String) : Bool :=
  (targetNames target).getLast?.any fun name => !(["", ".", ".."].contains name)

/-- The place of the file at a path, which is made if it is missing, following at most `links` links
that lead nowhere. -/
def openAppend (fs : FileSystem) : (links : Nat) → Path → Except FileError (Location × FileSystem)
  | 0, p => .error (.onPath .tooManyLinks p)
  | links + 1, p =>
    match fs.stat p with
    | .ok .folder => .error (.onPath .isFolder p)
    | .ok _ => do return ((← fs.locate p).location, fs)
    | .error (.onPath .missing q) => do
      match ← fs.locateLast p with
      | (_, none) => .error (.onPath .missing q)
      | (folder, some name) =>
        match fs.entryIn folder name with
        | .ok none =>
          let loc := folder.location ++ [name]
          .ok (loc, fs.set loc (.file []))
        | .ok (some (.link target)) =>
          if namesFile target then fs.openAppend links (targetPath folder target)
          else .error (.onPath .missing q)
        | _ => .error (.onPath .missing q)
    | .error e => .error e

end Stubsmith.Files.FileSystem
