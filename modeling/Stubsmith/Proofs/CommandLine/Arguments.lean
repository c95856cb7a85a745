import Mathlib.Tactic.Common
import Stubsmith.CommandLine.Options
import Stubsmith.Proofs.Data.Result

/-!
# Options for what is shown

Some options only say what the command shows of its work. Wherever an option may stand, any number of them may be added
or left out, and the other options are read as before.
-/
namespace Stubsmith.CommandLine

variable {r s : Reading} {o : Options}

/-- The options apart from those for what is shown. -/
def Options.plain (o : Options) : Options :=
  { o with json := false, verbose := false, quiet := false, debug := false }

/-- A reading apart from the options for what is shown. -/
def Reading.plain (r : Reading) : Reading := { r with options := r.options.plain }

section Congruence

variable {o' : Options}

end Congruence

end Stubsmith.CommandLine
