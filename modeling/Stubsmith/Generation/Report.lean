import Stubsmith.Files.Path

/-!
# Outcomes and reports

Each input file of a run has one outcome. A report lists them in the order of processing; its counts
name each status once, in the order in which it first occurred.
-/
namespace Stubsmith.Generation

open Files (Path)

inductive Status
  | generated
  | existing
  | noServices
  | parseError
  | createError
  | writeError
  | other (code : String)
  deriving DecidableEq, Repr

namespace Status

def code : Status → String
  | generated => "generated"
  | existing => "exists"
  | noServices => "no_services"
  | parseError => "parse_error"
  | createError => "create_error"
  | writeError => "write_error"
  | other c => c

def ofCode (c : String) : Status :=
  ([generated, existing, noServices, parseError, createError, writeError].find? (·.code == c)).getD
    (other c)

/-- The statuses of a file that nothing went wrong with. -/
def ok : Status → Bool
  | generated => true
  | existing => true
  | noServices => true
  | _ => false

end Status

/-- What became of one input file. -/
structure Outcome where
  input : Path
  status : Status
  output : Option Path := none
  services : Int := 0
  error : Option String := none
  deriving DecidableEq, Repr

def Outcome.ok (o : Outcome) : Bool := o.status.ok

/-- Adds one to the count of a status. -/
def countOne (s : Status) : List (Status × Nat) → List (Status × Nat)
  | [] => [(s, 1)]
  | c :: cs => if c.1 = s then (s, c.2 + 1) :: cs else c :: countOne s cs

structure Report where
  outcomes : List Outcome
  deriving DecidableEq, Repr

namespace Report

def empty : Report := ⟨[]⟩

def add (r : Report) (o : Outcome) : Report := ⟨r.outcomes ++ [o]⟩

def withStatus (r : Report) (s : Status) : List Outcome := r.outcomes.filter (·.status = s)

def generated (r : Report) : List Outcome := r.withStatus .generated

def failed (r : Report) : List Outcome := r.outcomes.filter (!·.ok)

def total (r : Report) : Nat := r.outcomes.length

def counts (r : Report) : List (Status × Nat) :=
  r.outcomes.foldl (fun cs o => countOne o.status cs) []

/-- The counts in the order of the codes of their statuses. -/
def sortedCounts (r : Report) : List (Status × Nat) :=
  r.counts.mergeSort fun a b => decide (a.1.code ≤ b.1.code)

end Report

end Stubsmith.Generation
