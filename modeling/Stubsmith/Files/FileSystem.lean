import Stubsmith.Files.Fault
import Stubsmith.Text.Utf8

/-!
# File systems

A file system assigns to each location nothing, a folder, a file with its bytes, a link with its
target, or something that is none of these, such as a device. A location is the list of names that leads
to it from the root, which is always a folder. One location is the working folder, from which relative
paths start. It stays a folder after it has been removed, without anything in it; the folder above it can
still be reached from it.

A path is resolved name by name: links are followed, up to a limit, and double dots lead to the folder
above the place reached so far.
-/
namespace Stubsmith.Files

open Text (Bytes)

inductive Entry
  | folder
  | file (bytes : Bytes)
  | link (target : String)
  /-- A device: nothing can be read from it, and what is written to it is not kept. -/
  | device
  deriving DecidableEq, Repr

abbrev Location := List String

/-- What a path can lead to: a location, or a folder that was removed while it was in use. -/
structure Place where
  location : Location
  /-- How many of the innermost names of the location have been removed. -/
  lost : Nat := 0
  deriving DecidableEq, Repr

/-- The folder above a place. -/
def Place.up (p : Place) : Place := ⟨p.location.dropLast, p.lost - 1⟩

structure FileSystem where
  entries : List (Location × Entry)
  here : Location
  /-- How many of the innermost names of the working folder have been removed. -/
  lost : Nat := 0
  deriving DecidableEq, Repr

namespace FileSystem

/-- The entry at a location. -/
def get? (fs : FileSystem) (loc : Location) : Option Entry :=
  if loc = [] then some .folder else (fs.entries.find? (·.1 = loc)).map (·.2)

/-- The file system with one entry added or replaced. -/
def set (fs : FileSystem) (loc : Location) (e : Entry) : FileSystem :=
  { fs with entries := (loc, e) :: fs.entries.filter (·.1 ≠ loc) }

/-- The file system without one entry. -/
def erase (fs : FileSystem) (loc : Location) : FileSystem :=
  { fs with entries := fs.entries.filter (·.1 ≠ loc) }

/-- The file system without a location and all below it, which the working folder may be. -/
def eraseTree (fs : FileSystem) (loc : Location) : FileSystem :=
  { fs with
    entries := fs.entries.filter fun e => !loc.isPrefixOf e.1
    lost := if loc.isPrefixOf fs.here then max fs.lost (fs.here.length + 1 - loc.length) else fs.lost }

/-- The names in a folder, in the order of their code points. -/
def names (fs : FileSystem) (loc : Location) : List String :=
  ((fs.entries.filter fun e => e.1 ≠ [] && e.1.dropLast = loc).filterMap (·.1.getLast?)).mergeSort
    (fun a b => decide (a ≤ b))

/-- The longest name in bytes. -/
def nameLimit : Nat := 255

/-- The length in bytes from which on a path is too long. -/
def pathLimit : Nat := 4096

/-- How many links one resolution follows. -/
def linkLimit : Nat := 40

/-- Where a path with this anchor starts. -/
def startOf (fs : FileSystem) : Anchor → Place
  | .here => ⟨fs.here, fs.lost⟩
  | _ => ⟨[], 0⟩

/-- The entry at a place. -/
def entryAt? (fs : FileSystem) (p : Place) : Option Entry :=
  if p.lost = 0 then fs.get? p.location else some .folder

/-- The names in the target of a link, with empty ones: each of them asks for a folder. -/
def targetNames (target : String) : List String :=
  (Text.fields '/' target.toList).map String.ofList

/-- Looks a name up in the folder at a place. Nothing can be looked up in one that was removed. -/
def entryIn (fs : FileSystem) (p : Place) (name : String) : Except Fault (Option Entry) :=
  if p.lost ≠ 0 then .error .missing
  else match fs.get? p.location with
    | some .folder =>
      if name.utf8ByteSize > nameLimit then .error .nameTooLong
      else .ok (fs.get? (p.location ++ [name]))
    | some _ => .error .notFolder
    | none => .error .missing

/-- Goes along the names from a place. A link on the way is handed to `follow`, with the place where its
target starts and the names still to go. -/
def walk (fs : FileSystem) (follow : Place → List String → Except Fault Place) :
    Place → List String → Except Fault Place
  | p, [] => .ok p
  | p, name :: rest =>
    if name = "" || name = "." || name = ".." then
      match fs.entryAt? p with
      | some .folder => walk fs follow (if name = ".." then p.up else p) rest
      | some _ => .error .notFolder
      | none => .error .missing
    else
      match fs.entryIn p name with
      | .error e => .error e
      | .ok none => .error .missing
      | .ok (some (.link target)) =>
        follow (if target.toList.head? = some '/' then ⟨[], 0⟩ else p) (targetNames target ++ rest)
      | .ok (some _) => walk fs follow ⟨p.location ++ [name], 0⟩ rest

/-- The place that the names lead to from another, following at most `links` links. -/
def resolveNames (fs : FileSystem) : (links : Nat) → Place → List String → Except Fault Place
  | 0 => fs.walk fun _ _ => .error .tooManyLinks
  | links + 1 => fs.walk (fs.resolveNames links)

/-- What no file system takes as a path. -/
def admissible (p : Path) : Except FileError Unit :=
  if p.text.toList.contains '\x00' then .error .nullCharacter
  else if p.text.utf8ByteSize ≥ pathLimit then .error (.onPath .nameTooLong p)
  else .ok ()

/-- A result of resolution, with a fault blamed on the path. -/
def blame {α : Type} (p : Path) (r : Except Fault α) : Except FileError α := r.mapError (.onPath · p)

/-- The place of the entry that a path leads to. -/
def locate (fs : FileSystem) (p : Path) : Except FileError Place := do
  admissible p
  blame p (fs.resolveNames linkLimit (fs.startOf p.anchor) p.parts)

/-- The entry that a path leads to, which is no link. -/
def stat (fs : FileSystem) (p : Path) : Except FileError Entry := do
  let place ← fs.locate p
  match fs.entryAt? place with
  | some e => .ok e
  | none => .error (.onPath .missing p)

/-- The folder that holds the last name of a path, and the name; a path that ends in double dots or
has no names leads to a folder without naming it. -/
def locateLast (fs : FileSystem) (p : Path) : Except FileError (Place × Option String) := do
  admissible p
  match p.parts.getLast? with
  | none => return (fs.startOf p.anchor, none)
  | some name =>
    let folder ← blame p (fs.resolveNames linkLimit (fs.startOf p.anchor) p.parts.dropLast)
    match fs.entryAt? folder with
    | some .folder => return (folder, if name = ".." then none else some name)
    | some _ => .error (.onPath .notFolder p)
    | none => .error (.onPath .missing p)

/-- A question about the entry at a path: no if there is none, a failure if that cannot be told. -/
def ask (fs : FileSystem) (p : Path) (question : Entry → Bool) : Except FileError Bool :=
  match fs.stat p with
  | .ok e => .ok (question e)
  | .error (.onPath fault q) => if fault.meansAbsent then .ok false else .error (.onPath fault q)
  | .error .nullCharacter => .ok false

def exists? (fs : FileSystem) (p : Path) : Except FileError Bool := fs.ask p fun _ => true

def isFile (fs : FileSystem) (p : Path) : Except FileError Bool :=
  fs.ask p fun e => match e with | .file _ => true | _ => false

def isFolder (fs : FileSystem) (p : Path) : Except FileError Bool :=
  fs.ask p fun e => match e with | .folder => true | _ => false

/-- The names in the folder at a path. -/
def list (fs : FileSystem) (p : Path) : Except FileError (List String) := do
  let place ← fs.locate p
  match fs.entryAt? place with
  | some .folder => .ok (if place.lost = 0 then fs.names place.location else [])
  | some _ => .error (.onPath .notFolder p)
  | none => .error (.onPath .missing p)

/-- The bytes of the file at a path. -/
def readFile (fs : FileSystem) (p : Path) : Except FileError Bytes := do
  match ← fs.stat p with
  | .file bytes => .ok bytes
  | .folder => .error (.onPath .isFolder p)
  | .link _ => .error (.onPath .tooManyLinks p)
  | .device => .ok []

/-- A place for a new entry: nothing may stand there, not even a link. -/
def vacancy (fs : FileSystem) (p : Path) : Except FileError Location := do
  match ← fs.locateLast p with
  | (_, none) => .error (.onPath .taken p)
  | (folder, some name) =>
    match fs.entryIn folder name with
    | .error fault => .error (.onPath fault p)
    | .ok (some _) => .error (.onPath .taken p)
    | .ok none => .ok (folder.location ++ [name])

/-- Adds a folder. -/
def makeFolder (fs : FileSystem) (p : Path) : Except FileError FileSystem := do
  return fs.set (← fs.vacancy p) .folder

/-- Adds an empty file where nothing stands yet, and tells where. -/
def createFile (fs : FileSystem) (p : Path) : Except FileError (Location × FileSystem) := do
  let loc ← fs.vacancy p
  return (loc, fs.set loc (.file []))

/-- Removes a file or a link. -/
def unlink (fs : FileSystem) (p : Path) : Except FileError FileSystem := do
  match ← fs.locateLast p with
  | (_, none) => .error (.onPath .isFolder p)
  | (folder, some name) =>
    match fs.entryIn folder name with
    | .error fault => .error (.onPath fault p)
    | .ok none => .error (.onPath .missing p)
    | .ok (some .folder) => .error (.onPath .isFolder p)
    | .ok (some _) => .ok (fs.erase (folder.location ++ [name]))

/-- A folder that could not be added is no failure if a folder stands there already. -/
def settle (fs : FileSystem) (p : Path) (e : FileError) : Except FileError FileSystem :=
  match fs.isFolder p with
  | .ok true => .ok fs
  | .ok false => .error e
  | .error e' => .error e'

/-- Makes sure that a folder stands at a path whose parent is there. -/
def ensureLast (fs : FileSystem) (p : Path) : Except FileError FileSystem :=
  match fs.makeFolder p with
  | .ok fs' => .ok fs'
  | .error (.onPath .missing q) => .error (.onPath .missing q)
  | .error .nullCharacter => .error .nullCharacter
  | .error e => fs.settle p e

/-- Goes on to the folder at a path once the folders above it are made sure of. -/
def ensureNext (q : Path) : Except FileError Unit × FileSystem → Except FileError Unit × FileSystem
  | (.error e, fs) => (.error e, fs)
  | (.ok (), fs) =>
    match fs.ensureLast q with
    | .ok fs' => (.ok (), fs')
    | .error e => (.error e, fs)

/-- As `ensureFolder`, for the first `n` names of a path. The folders above are made first where they
are missing; what has been made stays, also if a later step fails. -/
def ensureFirst (p : Path) : Nat → FileSystem → Except FileError Unit × FileSystem
  | 0, fs => ensureNext { p with parts := [] } (.ok (), fs)
  | n + 1, fs =>
    let q : Path := { p with parts := p.parts.take (n + 1) }
    match fs.ensureLast q with
    | .ok fs' => (.ok (), fs')
    | .error e => if e.isMissing then ensureNext q (ensureFirst p n fs) else (.error e, fs)

/-- Makes sure that a folder stands at a path, with all the folders above it. -/
def ensureFolder (fs : FileSystem) (p : Path) : Except FileError Unit × FileSystem :=
  ensureFirst p p.parts.length fs

/-- Adds bytes at the end of the file at a location. -/
def append (fs : FileSystem) (loc : Location) (bytes : Bytes) : FileSystem :=
  match fs.get? loc with
  | some (.file held) => fs.set loc (.file (held ++ bytes))
  | _ => fs

end FileSystem

end Stubsmith.Files
