import Stubsmith.Decimal.Shortest

/-!
# Nearest floating-point numbers

The floating-point number nearest to a quotient of natural numbers; of two that are equally near, the
one whose last binary digit is zero. A number m · 2^q with q at least -1074 and m below 2^53 has the
bits (q + 1074) · 2^52 + m, also where m has been rounded up to 2^53.
-/
namespace Stubsmith.Decimal

/-- The quotient rounded to the nearest natural number, a half to the even one. -/
def roundDiv (n d : Nat) : Nat :=
  let below := n / d
  let twice := 2 * (n % d)
  if d < twice || (d = twice && below % 2 = 1) then below + 1 else below

@[simp] theorem roundDiv_mul (q : Nat) {d : Nat} (h : 0 < d) : roundDiv (q * d) d = q := by
  simp only [roundDiv, Nat.mul_div_cancel q h, Nat.mul_mod_left]
  have hd : d ≠ 0 := by omega
  simp [hd]

/-- The exponent of the last binary digit that a number near `n / d` can have. -/
def lastPlace (n d : Nat) : Int :=
  let e : Int := (n.log2 : Int) - d.log2
  let isBelow := n * Nat.pow 2 (-e).toNat < d * Nat.pow 2 e.toNat
  max ((if isBelow then e - 1 else e) - 52) (-1074)

/-- The bits of the number nearest to `n / d`, without regard to the largest finite number. -/
def nearestBits (n d : Nat) : Nat :=
  if n = 0 then 0
  else
    let q := lastPlace n d
    (q + 1074).toNat * Nat.pow 2 52 + roundDiv (n * Nat.pow 2 (-q).toNat) (d * Nat.pow 2 q.toNat)

/-- The bits of infinity. -/
def infinityBits : Nat := 2047 * Nat.pow 2 52

/-- The number nearest to `n / d`; none if it would be beyond the largest finite number. -/
def nearest? (n d : Nat) : Option Float :=
  let bits := nearestBits n d
  if bits < infinityBits then some (Float.ofBits (UInt64.ofNat bits)) else none

def infinity : Float := Float.ofBits (UInt64.ofNat infinityBits)

/-- The number nearest to `digits` · 10^`exponent`; beyond the range of finite numbers it is infinite
or zero. A decimal of at least 10^400 or at most 10^-400 is not worked out: the finite numbers have at
most 309 digits before their point and at most 323 zeros after it. -/
def Scientific.nearest (s : Scientific) : Float :=
  let atLeast := (s.digits.log2 : Int) * 3 / 10 + s.exponent
  let atMost := (s.digits.log2 : Int) / 3 + 1 + s.exponent
  if s.digits = 0 then 0.0
  else if 400 ≤ atLeast then infinity
  else if atMost ≤ -400 then 0.0
  else
    (nearest? (s.digits * Nat.pow 10 s.exponent.toNat) (Nat.pow 10 (-s.exponent).toNat)).getD infinity

end Stubsmith.Decimal
