import Stubsmith.Text.Blank

/-!
# Paths

A path is an anchor and a list of names. Reading a path drops empty names and single dots and keeps
double dots; a leading pair of slashes is an anchor of its own.
-/
namespace Stubsmith.Files

/-- Where a path begins. -/
inductive Anchor
  | here
  | root
  | twinRoot
  deriving DecidableEq, Repr

def Anchor.text : Anchor → String
  | here => ""
  | root => "/"
  | twinRoot => "//"

structure Path where
  anchor : Anchor
  parts : List String
  deriving DecidableEq, Repr

namespace Path

/-- The anchor of a text, by the number of slashes it begins with. -/
def anchorOf (cs : List Char) : Anchor :=
  match (cs.takeWhile (· == '/')).length with
  | 0 => .here
  | 2 => .twinRoot
  | _ => .root

/-- A piece that counts as a name. -/
def isName (s : String) : Bool := s != "" && s != "."

def ofString (s : String) : Path :=
  ⟨anchorOf s.toList, ((Text.fields '/' s.toList).map String.ofList).filter isName⟩

/-- The path as it is shown; a path with nothing in it is a dot. -/
def text (p : Path) : String :=
  if p.anchor = .here && p.parts.isEmpty then "."
  else p.anchor.text ++ String.intercalate "/" p.parts

def isAbsolute (p : Path) : Bool := p.anchor != .here

/-- The path `q` seen from `p`. -/
def join (p q : Path) : Path := if q.isAbsolute then q else { p with parts := p.parts ++ q.parts }

/-- The entry with this name in the folder `p`. -/
def child (p : Path) (name : String) : Path := { p with parts := p.parts ++ [name] }

/-- The path without its last name. -/
def parent (p : Path) : Path := { p with parts := p.parts.dropLast }

/-- The last name, empty if there is none. -/
def name (p : Path) : String := p.parts.getLast?.getD ""

/-- What stands before the last dot of a name, unless the dot is its first or last character. -/
def stemOf (name : List Char) : List Char :=
  let extension := name.reverse.takeWhile (· != '.')
  let rest := name.reverse.drop (extension.length + 1)
  if extension.isEmpty || rest.isEmpty then name else rest.reverse

/-- The last name without its extension. -/
def stem (p : Path) : String := String.ofList (stemOf p.name.toList)

/-- The way from `base` down to `p`, if `p` lies at or under `base`. -/
def relativeTo? (p base : Path) : Option Path :=
  if p.anchor = base.anchor && base.parts.isPrefixOf p.parts then
    some ⟨.here, p.parts.drop base.parts.length⟩
  else none

end Path

end Stubsmith.Files
