import Stubsmith.Files.Path
import Stubsmith.Text.Quoted

/-!
# Faults of the file system

What an operation on a path can fail with. The message names the path as it was passed.
-/
namespace Stubsmith.Files

inductive Fault
  | missing
  | taken
  | notFolder
  | isFolder
  | nameTooLong
  | tooManyLinks
  deriving DecidableEq, Repr

namespace Fault

def number : Fault → Nat
  | missing => 2
  | taken => 17
  | notFolder => 20
  | isFolder => 21
  | nameTooLong => 36
  | tooManyLinks => 40

def label : Fault → String
  | missing => "No such file or directory"
  | taken => "File exists"
  | notFolder => "Not a directory"
  | isFolder => "Is a directory"
  | nameTooLong => "File name too long"
  | tooManyLinks => "Too many levels of symbolic links"

/-- A question about a path answers no to such a fault and passes on any other. -/
def meansAbsent : Fault → Bool
  | missing => true
  | notFolder => true
  | tooManyLinks => true
  | _ => false

end Fault

/-- A failed operation: the path is at fault, or it holds a character that no path may hold. -/
inductive FileError
  | onPath (fault : Fault) (path : Path)
  | nullCharacter
  deriving DecidableEq, Repr

/-- The error says that something on the way to the path is missing. -/
def FileError.isMissing : FileError → Bool
  | onPath .missing _ => true
  | _ => false

def FileError.message : FileError → String
  | onPath fault path =>
    "[Errno " ++ Text.decimal fault.number ++ "] " ++ fault.label ++ ": " ++ Text.quoted path.text
  | nullCharacter => "embedded null byte"

end Stubsmith.Files
