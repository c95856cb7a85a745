import Stubsmith.Data.Issue
import Stubsmith.Text.CodePoint

/-!
# Data

Values as data files hold them: scalars, lists and mappings from names to values.
-/
namespace Stubsmith

inductive Value
  | null
  | bool (b : Bool)
  /-- A decimal number: its digits with their sign, and how many of them stand after the point. -/
  | number (digits : Int) (places : Nat)
  | text (ps : List Text.CodePoint)
  | list (vs : List Value)
  | mapping (entries : List (String × Value))

/-- All results, or the issues of all, each under its index. -/
def Checked.each {α : Type} (check : Value → Checked α) : Int → List Value → Checked (List α)
  | _, [] => .ok []
  | i, v :: vs =>
    (both (under (.index i) (check v)) (each check (i + 1) vs)).map fun (x, xs) => x :: xs

end Stubsmith
