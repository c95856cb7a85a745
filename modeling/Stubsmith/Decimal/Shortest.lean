import Stubsmith.Text.Blank

/-!
# Shortest decimals

The text of a floating-point number has the fewest significant digits that read back as the same
number, and of these the nearest to it. A finite number is m · 2^q; the reals that are rounded to it
form an interval, whose ends belong to it exactly if m is even. The search tests, for each number of
digits, the two neighbours of the number among the decimals with so many digits.
-/
namespace Stubsmith.Decimal

/-- The number `digits` · 10^`exponent`. -/
structure Scientific where
  digits : Nat
  exponent : Int
  deriving DecidableEq, Repr

/-- A positive finite number m · 2^q. The step below it is half as wide if `atPower` holds. -/
structure Binary where
  m : Nat
  q : Int
  atPower : Bool
  deriving DecidableEq, Repr

/-- The magnitude of a finite number, from its bits. -/
def Binary.ofFloat (f : Float) : Binary :=
  let bits := f.toBits.toNat
  let e : Nat := bits / Nat.pow 2 52 % Nat.pow 2 11
  let fraction := bits % Nat.pow 2 52
  if e = 0 then ⟨fraction, -1074, false⟩
  else ⟨fraction + Nat.pow 2 52, (e : Int) - 1075, fraction = 0 && 1 < e⟩

/-- A quotient of natural numbers. -/
structure Ratio where
  num : Nat
  den : Nat

/-- `n` · 2^`q` · 10^`k`. -/
def Ratio.scaled (n : Nat) (q k : Int) : Ratio :=
  ⟨n * Nat.pow 2 q.toNat * Nat.pow 10 k.toNat, Nat.pow 2 (-q).toNat * Nat.pow 10 (-k).toNat⟩

/-- `digits` · 10^`k` is rounded to the number. -/
def Binary.covers (b : Binary) (digits : Nat) (k : Int) : Bool :=
  let low := if b.atPower then 4 * b.m - 1 else 4 * b.m - 2
  let lowEnd := Ratio.scaled low (b.q - 2) (-k)
  let highEnd := Ratio.scaled (4 * b.m + 2) (b.q - 2) (-k)
  if b.m % 2 = 0 then lowEnd.num ≤ digits * lowEnd.den && digits * highEnd.den ≤ highEnd.num
  else lowEnd.num < digits * lowEnd.den && digits * highEnd.den < highEnd.num

/-- The power of ten next above the number. -/
def Binary.magnitude (b : Binary) : Int :=
  let r := Ratio.scaled b.m b.q 400
  ((Nat.toDigits 10 (r.num / r.den)).length : Int) - 400

/-- The nearest decimal with `n` digits that is rounded to the number. -/
def Binary.nearest? (b : Binary) (n : Nat) : Option Scientific :=
  let k := b.magnitude - n
  let r := Ratio.scaled b.m b.q (-k)
  let below := r.num / r.den
  let twice := 2 * (r.num % r.den)
  let above := r.den < twice || (r.den = twice && below % 2 = 1)
  let choice := if above then [below + 1, below] else [below, below + 1]
  (choice.find? (b.covers · k)).map fun d => ⟨d, k⟩

/-- The shortest decimal that is rounded to the number. Seventeen digits always suffice. -/
def Binary.shortest (b : Binary) : Scientific :=
  ((List.range 17).findSome? fun n => b.nearest? (n + 1)).getD ⟨0, 0⟩

/-- The digits without the zeros at their end. -/
def trimZeros (ds : List Char) : List Char := (ds.reverse.dropWhile (· = '0')).reverse

/-- The text of a positive number: positional from 10^-4 up to 10^16, else with an exponent of at
least two digits. A positional text has a digit on either side of its point. -/
def Scientific.text (s : Scientific) : String :=
  let all := Nat.toDigits 10 s.digits
  let point := (all.length : Int) + s.exponent
  let ds := trimZeros all
  if -4 < point && point ≤ 16 then
    if point ≤ 0 then "0." ++ String.ofList (List.replicate (-point).toNat '0' ++ ds)
    else
      let n := point.toNat
      let whole := ds.take n ++ List.replicate (n - ds.length) '0'
      let part := ds.drop n
      String.ofList whole ++ "." ++ if part.isEmpty then "0" else String.ofList part
  else
    let e := point - 1
    let exponent := Nat.toDigits 10 e.natAbs
    let padded := if exponent.length < 2 then '0' :: exponent else exponent
    let part := ds.drop 1
    String.ofList (ds.take 1) ++ (if part.isEmpty then "" else "." ++ String.ofList part)
      ++ (if e < 0 then "e-" else "e+") ++ String.ofList padded

/-- The shortest text of a number. -/
def shortest (f : Float) : String :=
  if f.isNaN then "nan"
  else
    let magnitude :=
      if f.isInf then "inf"
      else if f == 0.0 then "0.0"
      else (Binary.ofFloat f).shortest.text
    if f.toBits.toNat < Nat.pow 2 63 then magnitude else "-" ++ magnitude

end Stubsmith.Decimal
