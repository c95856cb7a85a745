import Stubsmith.Text.Lines

/-!
# The text of a comment

A comment is stripped of its marks and of the blanks around it. A block comment keeps its line breaks
and loses the column of stars in front of its lines, and the empty lines at its ends.
-/
namespace Stubsmith.Service

open Text (CodePoint)

/-- A line of a block comment without blanks and without its leading star. -/
def cleanLine (line : List CodePoint) : List CodePoint :=
  Text.trim (Text.dropLead [.char '*'] (Text.trim line))

/-- The lines without the empty ones at either end. -/
def trimLines (ls : List (List CodePoint)) : List (List CodePoint) :=
  ((ls.dropWhile List.isEmpty).reverse.dropWhile List.isEmpty).reverse

/-- What stands between the marks of a block comment. -/
def blockBody (text : List CodePoint) : List CodePoint :=
  Text.dropTail (Text.points ['*', '/'])
    (Text.dropLead (Text.points ['/', '*']) (Text.dropLead (Text.points ['/', '*', '*']) text))

/-- The text inside a comment. -/
def commentText (raw : List CodePoint) : List CodePoint :=
  let text := Text.trim raw
  if (Text.points ['/', '/']).isPrefixOf text then Text.trim (text.dropWhile (· == .char '/'))
  else Text.joinWith [.char '\n'] (trimLines ((Text.lines (blockBody text)).map cleanLine))

end Stubsmith.Service
