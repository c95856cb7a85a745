/-!
# Blank characters

The blank characters are the white space of Unicode together with the four information separators
U+001C to U+001F. Trimming removes them from an end of a text.
-/
namespace Stubsmith.Text

/-- White space of Unicode, and the information separators. -/
def isBlank (c : Char) : Bool :=
  let n := c.toNat
  (9 ≤ n && n ≤ 13) || (28 ≤ n && n ≤ 32) || n == 0x85 || n == 0xA0 || n == 0x1680
    || (0x2000 ≤ n && n ≤ 0x200A) || n == 0x2028 || n == 0x2029 || n == 0x202F || n == 0x205F
    || n == 0x3000

/-- The text without its leading blanks. -/
def trimLeft (cs : List Char) : List Char := cs.dropWhile isBlank

/-- The text without its trailing blanks. -/
def trimRight (cs : List Char) : List Char := (cs.reverse.dropWhile isBlank).reverse

/-- The text after `lead` if it begins with it, else the whole text. -/
def dropLead {α : Type} [BEq α] (lead cs : List α) : List α :=
  if lead.isPrefixOf cs then cs.drop lead.length else cs

/-- The text before `tail` if it ends with it, else the whole text. -/
def dropTail {α : Type} [BEq α] (tail cs : List α) : List α :=
  if tail.isSuffixOf cs then cs.take (cs.length - tail.length) else cs

/-- The texts in order, with `sep` between neighbours. -/
def joinWith {α : Type} (sep : List α) : List (List α) → List α
  | [] => []
  | [t] => t
  | t :: u :: ts => t ++ sep ++ joinWith sep (u :: ts)

/-- The parts of a text between the separators `sep`; one more than there are separators. -/
def fields {α : Type} [DecidableEq α] (sep : α) : List α → List (List α)
  | [] => [[]]
  | c :: cs =>
    match fields sep cs with
    | f :: fs => if c = sep then [] :: f :: fs else (c :: f) :: fs
    | [] => [[c]]

/-- The decimal digits of a number. -/
def decimal (n : Nat) : String := String.ofList (Nat.toDigits 10 n)

/-- The decimal digits of an integer, with a minus sign below zero. -/
def signedDecimal (i : Int) : String :=
  if i < 0 then "-" ++ decimal i.natAbs else decimal i.natAbs

/-- The number in lower-case hexadecimal, filled up with zeros to at least `width` digits. -/
def hexadecimal (width n : Nat) : List Char :=
  let digits := Nat.toDigits 16 n
  List.replicate (width - digits.length) '0' ++ digits

end Stubsmith.Text
