import Stubsmith.Data.Value

/-!
# JSON text

A value as indented JSON in ASCII: each part on a line of its own, two spaces deeper than what holds
it. Characters outside of printable ASCII are escaped, those beyond U+FFFF as a pair.
-/
namespace Stubsmith.Value

/-- A code unit of sixteen bits as an escape. -/
def jsonUnit (n : Nat) : List Char := '\\' :: 'u' :: Text.hexadecimal 4 n

/-- One character of a JSON string. -/
def jsonChar (c : Char) : List Char :=
  if c = '"' then ['\\', '"']
  else if c = '\\' then ['\\', '\\']
  else if c = '\n' then ['\\', 'n']
  else if c = '\r' then ['\\', 'r']
  else if c = '\t' then ['\\', 't']
  else if c = '\x0c' then ['\\', 'f']
  else if c = '\x08' then ['\\', 'b']
  else if ' ' ≤ c && c ≤ '~' then [c]
  else if c.toNat < 0x10000 then jsonUnit c.toNat
  else
    let n := c.toNat - 0x10000
    jsonUnit (0xD800 + n / 0x400) ++ jsonUnit (0xDC00 + n % 0x400)

/-- One code point of a JSON string; half a character is escaped by its number. -/
def jsonPoint : Text.CodePoint → List Char
  | .char c => jsonChar c
  | .half n => jsonUnit n

/-- A text that may have half characters in it, as a JSON string. -/
def jsonPoints (ps : List Text.CodePoint) : String :=
  String.ofList ('"' :: ps.flatMap jsonPoint ++ ['"'])

def jsonString (s : String) : String := String.ofList ('"' :: s.toList.flatMap jsonChar ++ ['"'])

/-- A decimal number with `places` of its digits after the point. -/
def jsonNumber (digits : Int) (places : Nat) : String :=
  if places = 0 then Text.signedDecimal digits
  else
    let scale := Nat.pow 10 places
    let part := Nat.toDigits 10 (digits.natAbs % scale)
    (if digits < 0 then "-" else "") ++ Text.decimal (digits.natAbs / scale) ++ "."
      ++ String.ofList (List.replicate (places - part.length) '0' ++ part)

/-- A line break and the indentation of a depth. -/
def jsonBreak (depth : Nat) : String := String.ofList ('\n' :: List.replicate (2 * depth) ' ')

/-- Parts between brackets, each on a line of its own, within a collection at a depth. -/
def jsonParts (opening closing : String) (depth : Nat) (parts : List String) : String :=
  if parts.isEmpty then opening ++ closing
  else opening ++ jsonBreak (depth + 1) ++ String.intercalate ("," ++ jsonBreak (depth + 1)) parts
    ++ jsonBreak depth ++ closing

mutual

/-- The JSON of a value at a depth. -/
def jsonAt (depth : Nat) : Value → String
  | null => "null"
  | bool b => if b then "true" else "false"
  | number digits places => jsonNumber digits places
  | text ps => jsonPoints ps
  | list vs => jsonParts "[" "]" depth (jsonItems (depth + 1) vs)
  | mapping es => jsonParts "\x7b" "\x7d" depth (jsonEntries (depth + 1) es)

def jsonItems (depth : Nat) : List Value → List String
  | [] => []
  | v :: vs => jsonAt depth v :: jsonItems depth vs

def jsonEntries (depth : Nat) : List (String × Value) → List String
  | [] => []
  | (k, v) :: es => (jsonString k ++ ": " ++ jsonAt depth v) :: jsonEntries depth es

end

/-- The value as indented JSON. -/
def json (v : Value) : String := jsonAt 0 v

end Stubsmith.Value
