import Stubsmith.Logging.Record
import Stubsmith.Service.Basic
import Stubsmith.Text.Utf8

/-!
# Writers

A writer turns services into the text of a stub file. It names the file and appends to it, one service
at a time; what it appends may depend on what the file already holds. It can fail, before or after it
has appended something.
-/
namespace Stubsmith

open Text (Bytes)

/-- Why a writer gave up on a service. -/
inductive WriteFailure
  | blankComment
  | unencodable (text : List Text.CodePoint)
  | refused (message : String)
  deriving DecidableEq, Repr

def WriteFailure.message : WriteFailure → String
  | blankComment => "list index out of range"
  | unencodable text => Text.encodingRefusal text
  | refused m => m

/-- A request to write a service, as a recording writer keeps it. -/
structure WriteCall where
  service : Service
  base : String
  fileName : String
  deriving DecidableEq, Repr

/-- What a writer does with one service. -/
structure Emission where
  /-- The bytes added to the file. -/
  appended : Bytes := []
  failure : Option WriteFailure := none
  /-- The writer itself has removed the file it writes to. -/
  removesFile : Bool := false
  recorded : List WriteCall := []
  log : List LogRecord := []
  deriving Repr

structure Writer where
  name : String
  description : String
  /-- The name of the stub file for the base name of a proto file. -/
  fileName : (base : String) → String
  /-- Writes one service to a file that holds `held` so far. -/
  emit : (service : Service) → (base fileName : String) → (held : Bytes) → Emission

namespace Writer

/-- How a writer is shown. -/
def shown (w : Writer) : String := "<" ++ w.name ++ " name='" ++ w.name ++ "'>"

/-- Writes the services in order, up to the first failure; `held` grows along the way. -/
def emitAll (w : Writer) (base fileName : String) : (held : Bytes) → List Service → Emission
  | _, [] => {}
  | held, s :: ss =>
    let first := w.emit s base fileName held
    match first.failure with
    | some _ => first
    | none =>
      let others := w.emitAll base fileName (held ++ first.appended) ss
      { appended := first.appended ++ others.appended
        failure := others.failure
        removesFile := first.removesFile || others.removesFile
        recorded := first.recorded ++ others.recorded
        log := first.log ++ others.log }

end Writer

end Stubsmith
