import Stubsmith.Text.CodePoint

/-!
# Text for the terminal

A text may hold codes that a terminal would take for commands: an escape character and a bracket, then
parameters from zero to the question mark, then signs from the space to the slash, and at last one
character from the at sign to the tilde. What the command shows is free of them, and its lines end in a
line feed alone. A code does not reach from one piece of what is shown into the next.
-/
namespace Stubsmith.CommandLine

open Text (CodePoint)

/-- The code point is a character between two others. -/
def isBetween (lo hi : Char) (p : CodePoint) : Bool := lo ≤ p.toChar && p.toChar ≤ hi

/-- The length of the code at the head of a text, zero if there is none. -/
def codeLength : List CodePoint → Nat
  | .char '\x1b' :: .char '[' :: ps =>
    let parameters := ps.takeWhile (isBetween '0' '?')
    let signs := (ps.drop parameters.length).takeWhile (isBetween ' ' '/')
    let length := parameters.length + signs.length
    if (ps.drop length).head?.any (isBetween '@' '~') then length + 3 else 0
  | _ => 0

/-- The text without codes, the first `skipped` characters of which belong to one. -/
def dropCodes : (skipped : Nat) → List CodePoint → List CodePoint
  | _, [] => []
  | n + 1, _ :: ps => dropCodes n ps
  | 0, p :: ps =>
    match codeLength (p :: ps) with
    | 0 => p :: dropCodes 0 ps
    | n + 1 => dropCodes n ps

def withoutCodes (ps : List CodePoint) : List CodePoint := dropCodes 0 ps

/-- The text without the carriage returns that stand right before a line feed. -/
def joinLineEnds : List Char → List Char
  | '\r' :: '\n' :: cs => '\n' :: joinLineEnds cs
  | c :: cs => c :: joinLineEnds cs
  | [] => []

def withLineFeeds (s : String) : String := String.ofList (joinLineEnds s.toList)

/-- The pieces as they are shown: without codes, half characters spelled out, with plain line ends. -/
def shown (pieces : List (List CodePoint)) : String :=
  withLineFeeds (Text.spelled (pieces.flatMap withoutCodes))

end Stubsmith.CommandLine
