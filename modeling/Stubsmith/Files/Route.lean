import Stubsmith.Files.Path
import Stubsmith.Text.CodePoint

/-!
# Routes

A route is a path as it was given. Its names may have half characters in them, and then it is no path:
no entry of a file system has such a name, and none can be made under it.
-/
namespace Stubsmith.Files

open Text (CodePoint)

structure Route where
  anchor : Anchor
  parts : List (List CodePoint)
  deriving DecidableEq, Repr

namespace Route

/-- The route that is a path. -/
def ofPath (p : Path) : Route := ⟨p.anchor, p.parts.map fun name => Text.points name.toList⟩

/-- A piece that counts as a name. -/
def isName (ps : List CodePoint) : Bool := ps != [] && ps != [.char '.']

def ofPoints (ps : List CodePoint) : Route :=
  ⟨Path.anchorOf (Text.chars ps), (Text.fields (.char '/') ps).filter isName⟩

/-- The path that a route is, if it is one. -/
def path? (r : Route) : Option Path := (r.parts.mapM Text.plain?).map fun names => ⟨r.anchor, names⟩

@[simp] theorem path?_ofPath (p : Path) : (ofPath p).path? = some p := by
  have names : (p.parts.map fun name => Text.points name.toList).mapM Text.plain? = some p.parts := by
    induction p.parts with
    | nil => rfl
    | cons name names ih => simp [ih]
  simp [path?, ofPath, names]

/-- The route as it is shown; one with nothing in it is a dot. -/
def text (r : Route) : List CodePoint :=
  if r.anchor = .here && r.parts.isEmpty then [.char '.']
  else Text.points r.anchor.text.toList ++ [CodePoint.char '/'].intercalate r.parts

def isAbsolute (r : Route) : Bool := r.anchor != .here

/-- The route `s` seen from `r`. -/
def join (r s : Route) : Route := if s.isAbsolute then s else { r with parts := r.parts ++ s.parts }

/-- Why nothing can be made at a route that is no path. -/
def refusal (r : Route) : String := Text.encodingRefusal r.text

end Route

end Stubsmith.Files
