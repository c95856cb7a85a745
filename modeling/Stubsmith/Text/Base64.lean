import Stubsmith.Text.Utf8

/-!
# Base 64

Four characters carry three bytes. Characters outside of the alphabet are skipped, and equals signs
fill up the last group, after which nothing is read.
-/
namespace Stubsmith.Text

/-- The six bits of a character. -/
def sextet (c : Char) : Option Nat :=
  if 'A' ≤ c && c ≤ 'Z' then some (c.toNat - 65)
  else if 'a' ≤ c && c ≤ 'z' then some (c.toNat - 71)
  else if c.isDigit then some (c.toNat + 4)
  else if c = '+' then some 62
  else if c = '/' then some 63
  else none

/-- The bytes that the characters carry, after `place` characters of a group that left the bits
`carry`, and `pads` signs of filling; none if the last group is not full. -/
def base64From : (place carry pads : Nat) → List Char → Option Bytes
  | place, _, _, [] => if place = 0 then some [] else none
  | place, carry, pads, c :: cs =>
    if c = '=' then
      if 2 ≤ place then (if 4 ≤ place + pads + 1 then some [] else base64From place carry (pads + 1) cs)
      else base64From place carry pads cs
    else match sextet c with
      | none => base64From place carry pads cs
      | some n =>
        if place = 0 then base64From 1 n 0 cs
        else if place = 1 then (UInt8.ofNat (carry * 4 + n / 16) :: ·) <$> base64From 2 (n % 16) 0 cs
        else if place = 2 then (UInt8.ofNat (carry * 16 + n / 4) :: ·) <$> base64From 3 (n % 4) 0 cs
        else (UInt8.ofNat (carry * 64 + n) :: ·) <$> base64From 0 0 0 cs

def base64? (cs : List Char) : Option Bytes := base64From 0 0 0 cs

end Stubsmith.Text
