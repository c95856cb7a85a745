import Stubsmith.Text.CodePoint

/-!
# Faults of YAML texts

Most texts that are refused are just malformed. The others are well formed and hold a scalar that its
type cannot read; each of these faults has a wording of its own.
-/
namespace Stubsmith.Yaml

/-- The parts of a moment that can be out of range. -/
inductive CalendarPart
  | month
  | day
  | hour
  | minute
  | second
  deriving DecidableEq, Repr

def CalendarPart.message : CalendarPart → String
  | month => "month must be in 1..12"
  | day => "day is out of range for month"
  | hour => "hour must be in 0..23"
  | minute => "minute must be in 0..59"
  | second => "second must be in 0..59"

open Text (CodePoint)

/-- How many decimal digits a number may have. -/
def digitLimit : Nat := 4300

/-- Why a text has no value. -/
inductive Fault
  | malformed
  /-- An escape names a character beyond the last one. -/
  | character (code : Nat)
  /-- A number without any character. -/
  | emptyNumber
  | integer (base : Nat) (text : List CodePoint)
  | tooManyDigits (count : Nat)
  | float (text : List CodePoint)
  /-- A number to base sixty with too many parts. -/
  | wideFloat
  | boolean (text : List CodePoint)
  | timestamp
  /-- A mapping that is to stand for a moment. -/
  | timestampMapping
  | year (year : Nat)
  | calendar (part : CalendarPart)
  /-- A distance from universal time of a day or more, in minutes. -/
  | zone (minutes : Int)
  /-- A mapping whose default entry leads back to it. -/
  | endless
  deriving DecidableEq, Repr

/-- A span of time, given in minutes, as days and seconds. -/
def spanText (minutes : Int) : String :=
  let days := Int.fdiv minutes 1440
  let seconds := Int.fmod minutes 1440 * 60
  let parts := (if days = 0 then [] else ["days=" ++ Text.signedDecimal days])
    ++ (if seconds = 0 then [] else ["seconds=" ++ Text.signedDecimal seconds])
  "datetime.timedelta(" ++ (if parts.isEmpty then "0" else String.intercalate ", " parts) ++ ")"

/-- How much of a quoted text that is no integer is shown. -/
def shownLimit : Nat := 200

def Fault.message : Fault → String
  | malformed => ""
  | character code =>
    if code < Nat.pow 2 31 then "chr() arg not in range(0x110000)"
    else "Python int too large to convert to C int"
  | emptyNumber => "string index out of range"
  | integer base text =>
    "invalid literal for int() with base " ++ Text.decimal base ++ ": "
      ++ String.ofList ((Text.quotedPoints text).toList.take shownLimit)
  | tooManyDigits count => "Exceeds the limit (4300 digits) for integer string conversion: value has "
    ++ Text.decimal count ++ " digits; use sys.set_int_max_str_digits() to increase the limit"
  | float text => "could not convert string to float: " ++ Text.quotedPoints text
  | wideFloat => "int too large to convert to float"
  | boolean text => Text.quotedPoints text
  | timestamp => "'NoneType' object has no attribute 'groupdict'"
  | timestampMapping => "expected string or bytes-like object, got 'list'"
  | year y => "year " ++ Text.decimal y ++ " is out of range"
  | calendar part => part.message
  | zone minutes => "offset must be a timedelta strictly between -timedelta(hours=24) and "
    ++ "timedelta(hours=24), not " ++ spanText minutes ++ "."
  | endless => "maximum recursion depth exceeded"

end Stubsmith.Yaml
