import Stubsmith.Text.CodePoint

/-!
# Lines

Two readings of line ends: `lines` cuts a text at every Unicode line boundary, `unifyNewlines` writes
each carriage return, alone or before a newline, as one newline.
-/
namespace Stubsmith.Text

/-- The characters that end a line. -/
def isLineBreak (c : Char) : Bool :=
  let n := c.toNat
  (10 ≤ n && n ≤ 13) || (28 ≤ n && n ≤ 30) || n == 0x85 || n == 0x2028 || n == 0x2029

def CodePoint.isLineBreak (p : CodePoint) : Bool := Text.isLineBreak p.toChar

/-- The lines of a text without their ends. A carriage return and the newline after it end one
line; a text that ends with a line break has no empty line after it. -/
def lines : List CodePoint → List (List CodePoint)
  | [] => []
  | .char '\r' :: .char '\n' :: ps => [] :: lines ps
  | p :: ps =>
    if p.isLineBreak then [] :: lines ps
    else match lines ps with
      | [] => [[p]]
      | l :: ls => (p :: l) :: ls

/-- Every line end written as a single newline. -/
def unifyNewlines : List Char → List Char
  | [] => []
  | '\r' :: '\n' :: cs => '\n' :: unifyNewlines cs
  | c :: cs => (if c = '\r' then '\n' else c) :: unifyNewlines cs

end Stubsmith.Text
