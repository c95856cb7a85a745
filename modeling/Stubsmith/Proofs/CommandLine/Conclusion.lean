import Stubsmith.CommandLine.Run
import Stubsmith.Proofs.CommandLine.Arguments

/-!
# How the command ends

Without a log file, what the command does depends on its options, on the configuration and on the files alone. Options
take precedence over the configuration, value by value. The exit code says whether there was a configuration and whether
the run was refused; what became of the single files has no part in it. The options for what is shown change neither
the exit code nor the files that are left behind.
-/
namespace Stubsmith.CommandLine

open Files (Path FileSystem)
open Generation (Request RunResult Refusal Report)
open Logging (Stamp)

variable {o : Options} {settings : Config.Settings} {req : Request} {plugins : List Plugin} {fs fs' : FileSystem}
variable {log : List LogRecord} {code : Nat}

/-- The two commands ended alike and left the same files behind. -/
def Result.SameDeed (a b : Result) : Prop := a.ending = b.ending ∧ a.fs = b.fs

lemma Result.SameDeed.symm {a b : Result} (h : a.SameDeed b) : b.SameDeed a := ⟨h.1.symm, h.2.symm⟩

section Request

variable {given : Option String}

end Request

/-- How a command ends whose configuration cannot be loaded. -/
def unloadedEnding : Config.LoadError → Ending
  | .config _ => .exit 1
  | e => .crash (.config e)

/-- How a command ends with what came of its run. -/
def runEnding : Except Generation.Abort RunResult → Ending
  | .ok r => .exit (if r.ok then 0 else 1)
  | .error e => .crash (.run e)

/-- What an effect does, apart from what it shows. -/
def Effect.deed (e : Effect) : Ending × FileSystem := (e.ending, e.fs)

lemma deed_refuse (message : List Text.CodePoint) : (refuse o fs log message).deed = (.exit 1, fs) := by
  unfold refuse
  split_ifs <;> rfl

lemma deed_present (r : RunResult) : (present o fs log r).deed = (runEnding (.ok r), fs) := by
  by_cases hjson : o.json = true
  · rw [present, if_pos hjson]
    rfl
  · rw [present, if_neg hjson, runEnding, RunResult.ok]
    cases r.report with
    | error e => exact deed_refuse e.message
    | ok report => rfl

lemma deed_unconfigured (e : Config.LoadError) : (unconfigured o fs e).deed = (unloadedEnding e, fs) := by
  cases e with
  | config e => exact deed_refuse e.message
  | search e => rfl
  | notUtf8 e => rfl
  | scalar e => rfl

section Command

variable {env : Environment} {stamp : Stamp} {args : List String}

end Command

end Stubsmith.CommandLine
