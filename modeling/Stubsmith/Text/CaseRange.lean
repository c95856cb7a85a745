/-!
# Case ranges

Most letters have their partner in the other case at a distance that they share with their neighbours.
A range lists such letters, every one or every second of them.
-/
namespace Stubsmith.Text

/-- The code points `first`, `first + step`, … `last`, each of which has its partner at `distance`. -/
structure CaseRange where
  first : Nat
  last : Nat
  step : Nat
  distance : Int

namespace CaseRange

/-- The range lists the code point `n`. -/
def lists (r : CaseRange) (n : Nat) : Bool :=
  r.first ≤ n && n ≤ r.last && (n - r.first) % r.step == 0

/-- The partner of a character by the ranges `rs`; the character itself if none lists it. -/
def partner (rs : List CaseRange) (c : Char) : Char :=
  match rs.find? (·.lists c.toNat) with
  | some r => Char.ofNat (c.toNat + r.distance).toNat
  | none => c

end CaseRange

end Stubsmith.Text
