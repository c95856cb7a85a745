import Stubsmith.Files.FileSystem

/-!
# Real paths

The real path of a path is absolute and free of links and double dots. It is found without regard to
whether anything stands at the path. Links that lead back to themselves have no real path, nor has a
relative path when the working folder was removed, unless a link leads from it to a place named from
the root.

On the way a link is known by the path that led to it. One that was reached from the working folder and
is reached again from the root counts as another, so a link may be gone through twice before it is
found to lead back to itself.
-/
namespace Stubsmith.Files

/-- The folder above, by names alone. From the working folder double dots lead up. -/
def Path.above (p : Path) : Path :=
  if p.isAbsolute then p.parent
  else if p.name = "" || p.name = ".." then p.child ".."
  else p.parent

/-- The path followed by more names. Where an empty name comes first, the others start at the root. -/
def Path.follow (p : Path) : List String → Path
  | "" :: name :: rest => ⟨.root, name :: rest⟩
  | names => { p with parts := p.parts ++ names }

/-- The links met so far, each with the path behind it once that is known. -/
abbrev LinksSeen := List (Path × Option Path)

/-- A path free of links, or one at which a link led back to itself. -/
structure RealStep where
  path : Path
  complete : Bool
  seen : LinksSeen

/-- A list of names without single and double dots, which are undone without looking at any entry. -/
def plainNames : Location → List String → Location
  | loc, [] => loc
  | loc, name :: rest =>
    if name = "" || name = "." then plainNames loc rest
    else if name = ".." then plainNames loc.dropLast rest
    else plainNames (loc ++ [name]) rest

namespace FileSystem

/-- The target of the link at a path. -/
def linkAt? (fs : FileSystem) (p : Path) : Option String :=
  match fs.locateLast p with
  | .ok (folder, some name) =>
    match fs.entryIn folder name with
    | .ok (some (.link target)) => some target
    | _ => none
  | _ => none

/-- Goes along the names, resolving each link by `follow` before going on. -/
def realWalk (fs : FileSystem) (follow : Path → List String → LinksSeen → RealStep) :
    Path → List String → LinksSeen → RealStep
  | p, [], seen => ⟨p, true, seen⟩
  | p, name :: rest, seen =>
    if name = "" || name = "." then realWalk fs follow p rest seen
    else if name = ".." then realWalk fs follow p.above rest seen
    else
      let next := p.child name
      match fs.linkAt? next with
      | none => realWalk fs follow next rest seen
      | some target =>
        match seen.lookup next with
        | some (some known) => realWalk fs follow known rest seen
        | some none => ⟨next.follow rest, false, seen⟩
        | none =>
          let start := if target.toList.head? = some '/' then ⟨.root, []⟩ else p
          let reached := follow start (targetNames target) ((next, none) :: seen)
          if reached.complete then
            realWalk fs follow reached.path rest ((next, some reached.path) :: reached.seen)
          else ⟨reached.path.follow rest, false, reached.seen⟩

/-- As `realWalk`, with at most `depth` links inside each other. -/
def realNames (fs : FileSystem) : (depth : Nat) → Path → List String → LinksSeen → RealStep
  | 0 => fs.realWalk fun p rest seen => ⟨p.follow rest, false, seen⟩
  | depth + 1 => fs.realWalk (fs.realNames depth)

/-- The path of a location. -/
def pathOf (loc : Location) : Path := ⟨.root, loc⟩

/-- A path as seen from the root, with dots undone by their names alone. -/
def plainPath (fs : FileSystem) (p : Path) : Path :=
  pathOf (plainNames (fs.startOf p.anchor).location p.parts)

end FileSystem

/-- Why a path has no real path. -/
inductive RealError
  | linkLoop (path : Path)
  | nullCharacter
  | workingFolderLost
  deriving DecidableEq, Repr

def RealError.message : RealError → String
  | linkLoop p => "Symlink loop from " ++ Text.quoted p.text
  | nullCharacter => "embedded null byte"
  | workingFolderLost =>
    "[Errno " ++ Text.decimal Fault.missing.number ++ "] " ++ Fault.missing.label

namespace FileSystem

/-- The path starts at a working folder that was removed. -/
def isAdrift (fs : FileSystem) (p : Path) : Bool := (fs.startOf p.anchor).lost != 0

/-- How many links can be met inside each other: each entry can be reached from the root, and from the
working folder with as many double dots as there are folders above it. -/
def linkDepth (fs : FileSystem) : Nat := fs.entries.length * (fs.here.length + 2)

/-- The real path of a path. -/
def realPath (fs : FileSystem) (p : Path) : Except RealError Path :=
  if p.text.toList.contains '\x00' then .error .nullCharacter
  else
    let start : Path := ⟨if p.isAbsolute then .root else .here, []⟩
    let reached := (fs.realNames fs.linkDepth start p.parts []).path
    let real := fs.plainPath reached
    if fs.isAdrift reached then .error .workingFolderLost
    else match fs.stat real with
      | .error (.onPath .tooManyLinks _) => .error (.linkLoop real)
      | _ => .ok real

end FileSystem

end Stubsmith.Files
