import Stubsmith.Text.Blank
import Stubsmith.Writer.Basic

/-!
# Recording writer

A writer for rehearsals: it writes one line for each service, keeps a record of every request, and
fails for the services it is told to fail for.
-/
namespace Stubsmith

/-- The settings of a recording writer, and the requests it has seen. -/
structure Recorder where
  suffix : String := ".stub"
  failures : List (String × String) := []
  calls : List WriteCall := []
  deriving DecidableEq, Repr

namespace Recorder

def defaultFailure : String := "Mock failure"

/-- From now on the service fails with the message. -/
def setFailure (r : Recorder) (service message : String) : Recorder :=
  { r with failures := (service, message) :: r.failures.filter (·.1 != service) }

/-- Forgets requests and failures. -/
def reset (r : Recorder) : Recorder := { r with failures := [], calls := [] }

/-- The line for a service. -/
def line (s : Service) : String := s.name ++ ":" ++ String.intercalate "," s.methodNames ++ "\n"

def failureFor (r : Recorder) (service : String) : Option String :=
  (r.failures.find? (·.1 == service)).map (·.2)

def writer (r : Recorder) : Writer where
  name := "MockServiceWriter"
  description := "Recording writer for tests."
  fileName base := base ++ r.suffix
  emit s base out _ :=
    let call : WriteCall := ⟨s, base, out⟩
    match r.failureFor s.name with
    | some m => { failure := some (.refused m), recorded := [call] }
    | none => { appended := Text.encode (line s).toList, recorded := [call] }

/-- The recorder after it has seen more requests. -/
def observe (r : Recorder) (calls : List WriteCall) : Recorder := { r with calls := r.calls ++ calls }

end Recorder

end Stubsmith
