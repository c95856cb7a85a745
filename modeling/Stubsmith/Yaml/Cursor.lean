/-!
# Cursors

A cursor is a place in a text: what is still to be read, and the index, line and column reached. Line
breaks are those of YAML; a carriage return and a line feed together are one break.
-/
namespace Stubsmith.Yaml

structure Cursor where
  rest : List Char
  index : Nat
  line : Nat
  column : Nat
  deriving Repr

def isBreak (c : Char) : Bool :=
  c = '\n' || c = '\r' || c = '\x85' || c = '\u2028' || c = '\u2029'

/-- The text ends here, or a line does. -/
def atBreak (c : Option Char) : Bool := c.all isBreak

/-- The text ends here, or a space or the end of a line stands here. -/
def atSpace (c : Option Char) : Bool := c.all fun c => c = ' ' || isBreak c

/-- The text ends here, or a space, a tab or the end of a line stands here. -/
def atBlank (c : Option Char) : Bool := c.all fun c => c = ' ' || c = '\t' || isBreak c

namespace Cursor

def ofText (cs : List Char) : Cursor := ⟨cs, 0, 0, 0⟩

/-- The character `n` places ahead. -/
def peek (c : Cursor) (n : Nat) : Option Char := c.rest[n]?

/-- `ch` stands here. -/
def sees (c : Cursor) (ch : Char) : Bool := c.rest.head? = some ch

/-- Past one character. A byte order mark takes up no column. -/
def advance (c : Cursor) : Cursor :=
  match c.rest with
  | [] => c
  | ch :: rest =>
    if isBreak ch && !(ch = '\r' && rest.head? = some '\n') then ⟨rest, c.index + 1, c.line + 1, 0⟩
    else ⟨rest, c.index + 1, c.line, if ch = '\ufeff' then c.column else c.column + 1⟩

def skip : Nat → Cursor → Cursor
  | 0, c => c
  | n + 1, c => skip n c.advance

/-- The longest run of characters that satisfy `p`, and the place after it. -/
def span (c : Cursor) (p : Char → Bool) : List Char × Cursor :=
  let run := c.rest.takeWhile p
  (run, c.skip run.length)

def skipWhile (c : Cursor) (p : Char → Bool) : Cursor := (c.span p).2

def skipSpaces (c : Cursor) : Cursor := c.skipWhile (· = ' ')

/-- Past a comment, up to the end of its line, if one stands here. -/
def skipComment (c : Cursor) : Cursor :=
  if c.sees '#' then c.skipWhile (!isBreak ·) else c

/-- The break that stands here, as it counts in a value, and the place after it. -/
def lineBreak? (c : Cursor) : Option (Char × Cursor) :=
  match c.rest with
  | '\r' :: '\n' :: _ => some ('\n', c.skip 2)
  | ch :: _ =>
    if ch = '\n' || ch = '\r' || ch = '\x85' then some ('\n', c.advance)
    else if ch = '\u2028' || ch = '\u2029' then some (ch, c.advance)
    else none
  | [] => none

/-- Past the break that stands here, if one does. -/
def skipBreak (c : Cursor) : Cursor := (c.lineBreak?.map (·.2)).getD c

/-- Three dashes or three dots stand here by themselves. -/
def seesSeparator (c : Cursor) : Bool :=
  (c.rest.take 3 = ['-', '-', '-'] || c.rest.take 3 = ['.', '.', '.']) && atBlank (c.peek 3)

end Cursor

end Stubsmith.Yaml
