import Stubsmith.Files.Fault
import Stubsmith.Writer.Basic

/-!
# Where a stub file goes

The stub file of an input lies under the output root as the input lies under the input root, under the
name that the writer gives it.
-/
namespace Stubsmith.Generation

open Files (Path)

/-- The name of a proto file that a writer is told: without its extension. -/
def baseName (input : Path) : String := input.stem

/-- The input does not lie under the root. -/
structure Outside where
  input : Path
  root : Path
  deriving DecidableEq, Repr

/-- The root as it is shown when a path does not lie under it: nothing at all for an empty path. -/
def Outside.rootText (e : Outside) : String :=
  if e.root.text = "." then "" else e.root.text

def Outside.message (e : Outside) : String :=
  Text.quoted e.input.text ++ " is not in the subpath of " ++ Text.quoted e.rootText
    ++ " OR one path is relative and the other is absolute."

/-- The path of the stub file for an input under a root. -/
def outputPath (input root out : Path) (w : Writer) : Except Outside Path :=
  let name := Path.ofString (w.fileName (baseName input))
  if input = root then .ok (out.join name)
  else
    match input.relativeTo? root with
    | none => .error ⟨input, root⟩
    | some below => .ok ((out.join below.parent).join name)

end Stubsmith.Generation
