import Stubsmith.Text.Blank
import Stubsmith.Text.Printable

/-!
# Quoted text

Messages show a piece of text between quotes: apostrophes, unless the text holds an apostrophe and no
double quote. A backslash, the quote in use and every unprintable character are escaped.
-/
namespace Stubsmith.Text

def apostrophe : Char := '\x27'

/-- One character between the quotes `q`. -/
def escapeQuoted (q c : Char) : List Char :=
  if c = '\\' || c = q then ['\\', c]
  else if c = '\n' then ['\\', 'n']
  else if c = '\r' then ['\\', 'r']
  else if c = '\t' then ['\\', 't']
  else if isPrintable c then [c]
  else if c.toNat < 0x100 then '\\' :: 'x' :: hexadecimal 2 c.toNat
  else if c.toNat < 0x10000 then '\\' :: 'u' :: hexadecimal 4 c.toNat
  else '\\' :: 'U' :: hexadecimal 8 c.toNat

/-- The quote in which a text is shown. -/
def quoteFor (cs : List Char) : Char :=
  if cs.contains apostrophe && !cs.contains '"' then '"' else apostrophe

/-- The text between quotes. -/
def quoted (s : String) : String :=
  let q := quoteFor s.toList
  String.ofList (q :: s.toList.flatMap (escapeQuoted q) ++ [q])

end Stubsmith.Text
