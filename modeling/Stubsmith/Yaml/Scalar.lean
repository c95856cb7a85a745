import Stubsmith.Decimal.Nearest
import Stubsmith.Text.Base64
import Stubsmith.Text.Digit
import Stubsmith.Yaml.Fault
import Stubsmith.Yaml.Tag

/-!
# Scalars

The values that a scalar can stand for, how their texts are read, and how they are shown. A number may
be divided by underscores and written in the digits of any script; an integer may be binary, octal,
hexadecimal or to base sixty.
-/
namespace Stubsmith.Yaml

open Text (CodePoint)

/-- A time of day, perhaps with its distance from universal time in minutes. -/
structure TimeOfDay where
  hour : Nat
  minute : Nat
  second : Nat
  microsecond : Nat
  zone : Option Int
  deriving DecidableEq, Repr

/-- A day of the calendar and perhaps a time. -/
structure Timestamp where
  year : Nat
  month : Nat
  day : Nat
  time : Option TimeOfDay
  deriving DecidableEq, Repr

inductive Scalar
  | null
  | bool (b : Bool)
  | int (i : Int)
  | float (f : Float)
  /-- No number: the common one, or that of a node, which is the same only as itself. -/
  | nan (node : Option Nat)
  | text (s : List CodePoint)
  | bytes (b : Text.Bytes)
  | timestamp (t : Timestamp)

/-- The value of a digit in any base up to sixteen. -/
def digitValue (c : Char) : Nat :=
  if c.isDigit then c.toNat - 48
  else if 'a' ≤ c && c ≤ 'f' then c.toNat - 87
  else if 'A' ≤ c && c ≤ 'F' then c.toNat - 55
  else 16

/-- The number that digits to a base stand for. -/
def natValue (base : Nat) (ds : List Char) : Nat := ds.foldl (fun n d => n * base + digitValue d) 0

/-- A character of a number in ASCII: blanks beyond it count as spaces and digits of other scripts by
their values. -/
def plainDigit (c : Char) : Char :=
  if c.toNat < 0x80 then c
  else if Text.isBlank c then ' '
  else match Text.digit? c with
    | some n => Text.asciiDigit n
    | none => c

/-- A space, a tab or an end of a line or page, within ASCII. -/
def isNumberBlank (c : Char) : Bool := c = ' ' || ('\t' ≤ c && c ≤ '\r')

/-- A number in ASCII, without the blanks around it. -/
def numberText (ps : List CodePoint) : List Char :=
  let cs := ((Text.chars ps).map plainDigit).dropWhile isNumberBlank
  (cs.reverse.dropWhile isNumberBlank).reverse

/-- A sign, if there is one, as a factor, and the rest of the text. -/
def splitSign : List Char → Int × List Char
  | '-' :: cs => (-1, cs)
  | '+' :: cs => (1, cs)
  | cs => (1, cs)

/-- A sign at the head of a text of code points, if there is one, as a factor, and the rest. -/
def splitSignPoint : List CodePoint → Int × List CodePoint
  | .char '-' :: ps => (-1, ps)
  | .char '+' :: ps => (1, ps)
  | ps => (1, ps)

/-- Digits to a base without the mark of that base. -/
def dropBaseMark (base : Nat) : List Char → List Char
  | '0' :: m :: ds =>
    if (base = 2 && (m = 'b' || m = 'B')) || (base = 8 && (m = 'o' || m = 'O'))
      || (base = 16 && (m = 'x' || m = 'X')) then ds else '0' :: m :: ds
  | ds => ds

/-- An integer to a base, with blanks around it, a sign and the mark of the base allowed. Too many
decimal digits are noticed before anything that comes after them. -/
def readInteger (base : Nat) (ps : List CodePoint) : Except Fault Int :=
  let (sign, rest) := splitSign (numberText ps)
  let cs := dropBaseMark base rest
  let ds := cs.takeWhile (digitValue · < base)
  if base = 10 && digitLimit < ds.length then .error (.tooManyDigits ds.length)
  else if ds.isEmpty || ds.length < cs.length then .error (.integer base ps)
  else .ok (sign * natValue base ds)

/-- The text without underscores, of which something must be left. -/
def ungapped (ps : List CodePoint) : Except Fault (List CodePoint) :=
  let ps := ps.filter (· != .char '_')
  if ps.isEmpty then .error .emptyNumber else .ok ps

/-- The parts of a text between colons. -/
def sixtieths : List CodePoint → List (List CodePoint)
  | [] => [[]]
  | p :: ps =>
    match sixtieths ps with
    | f :: fs => if p = .char ':' then [] :: f :: fs else (p :: f) :: fs
    | [] => [[p]]

/-- An integer by the form of its text. What is left without a sign must not be empty. -/
def integer (text : List CodePoint) : Except Fault Int := do
  let (sign, ps) := splitSignPoint (← ungapped text)
  match ps with
  | [] => .error .emptyNumber
  | [.char '0'] => return 0
  | .char '0' :: .char 'b' :: ds => return sign * (← readInteger 2 ds)
  | .char '0' :: .char 'x' :: ds => return sign * (← readInteger 16 ds)
  | .char '0' :: _ => return sign * (← readInteger 8 ps)
  | _ =>
    if ps.contains (.char ':') then do
      let parts ← (sixtieths ps).mapM (readInteger 10)
      return sign * parts.foldl (fun n p => n * 60 + p) 0
    else return sign * (← readInteger 10 ps)

/-- The exponent of a decimal, from its mark to the end of the text. -/
def exponent? : List Char → Option Int
  | [] => some 0
  | e :: cs =>
    let (sign, ds) := splitSign cs
    if e = 'e' && Tag.isRun Char.isDigit ds then some (sign * natValue 10 ds) else none

/-- A decimal without a sign, all in lower case. -/
def unsignedDecimal? (cs : List Char) : Option Float :=
  let name := String.ofList cs
  if name = "inf" || name = "infinity" then some (1.0 / 0.0)
  else if name = "nan" then some (0.0 / 0.0)
  else
    let whole := cs.takeWhile Char.isDigit
    let (part, rest) := match cs.dropWhile Char.isDigit with
      | '.' :: rest => (rest.takeWhile Char.isDigit, rest.dropWhile Char.isDigit)
      | rest => ([], rest)
    if whole.isEmpty && part.isEmpty then none
    else (exponent? rest).map fun e =>
      (Decimal.Scientific.mk (natValue 10 (whole ++ part)) (e - part.length)).nearest

def signFactor (sign : Int) : Float := if sign < 0 then -1.0 else 1.0

/-- A decimal in lower case, with blanks around it and a sign allowed. -/
def readDecimal (ps : List CodePoint) : Except Fault Float :=
  let (sign, rest) := splitSign (numberText ps)
  match unsignedDecimal? rest with
  | some f => .ok (signFactor sign * f)
  | none => .error (.float ps)

/-- The sum of the parts of a number to base sixty, the last part first. The weights of the parts are
exact before they are rounded, and each must be within the range of finite numbers. -/
def sumSixtieths : (weight : Nat) → (sum : Float) → List Float → Except Fault Float
  | _, sum, [] => .ok sum
  | weight, sum, p :: ps =>
    match Decimal.nearest? weight 1 with
    | some w => sumSixtieths (weight * 60) (sum + p * w) ps
    | none => .error .wideFloat

/-- A floating-point number by the form of its text. -/
def float (text : List CodePoint) : Except Fault Float := do
  let (sign, ps) := splitSignPoint (Text.lowerPoints (← ungapped text))
  let name := String.ofList (Text.chars ps)
  if name = ".inf" then return signFactor sign * (1.0 / 0.0)
  else if name = ".nan" then return 0.0 / 0.0
  else if ps.contains (.char ':') then do
    let parts ← (sixtieths ps).mapM readDecimal
    return signFactor sign * (← sumSixtieths 1 0.0 parts.reverse)
  else return signFactor sign * (← readDecimal ps)

/-- The text is that of the common value that is no number. -/
def isCommonNan (text : List CodePoint) : Bool :=
  let (_, ps) := splitSignPoint (Text.lowerPoints (text.filter (· != .char '_')))
  Text.chars ps = ".nan".toList

def boolean (text : List CodePoint) : Except Fault Bool :=
  let word := Text.lowerPoints text
  let name := String.ofList (Text.chars word)
  if ["yes", "true", "on"].contains name then .ok true
  else if ["no", "false", "off"].contains name then .ok false
  else .error (.boolean word)

def isLeapYear (y : Nat) : Bool := y % 4 = 0 && (y % 100 != 0 || y % 400 = 0)

def daysIn (year month : Nat) : Nat :=
  if month = 2 then (if isLeapYear year then 29 else 28)
  else if [4, 6, 9, 11].contains month then 30
  else 31

/-- The fraction of a second in millionths; further digits are dropped. -/
def microseconds (ds : List Char) : Nat :=
  let six := ds.take 6
  natValue 10 (six ++ List.replicate (6 - six.length) '0')

/-- The distance from universal time, less than a day. -/
def zoneOf : Option (Bool × List Char × List Char) → Except Fault (Option Int)
  | none => .ok none
  | some (negative, hours, minutes) =>
    let distance : Int := natValue 10 hours * 60 + natValue 10 minutes
    let z := if negative then -distance else distance
    if 1440 ≤ distance then .error (.zone z) else .ok (some z)

/-- A day of the calendar. -/
def checkDay (year month day : Nat) : Except Fault Unit :=
  if year = 0 then .error (.year year)
  else if month = 0 || 12 < month then .error (.calendar .month)
  else if day = 0 || daysIn year month < day then .error (.calendar .day)
  else .ok ()

def checkTime (hour minute second : Nat) : Except Fault Unit :=
  if 23 < hour then .error (.calendar .hour)
  else if 59 < minute then .error (.calendar .minute)
  else if 59 < second then .error (.calendar .second)
  else .ok ()

def moment (text : List Char) : Except Fault Timestamp :=
  match Tag.momentText? (Tag.dropLastFeed text) with
  | none => .error .timestamp
  | some t => do
    let year := natValue 10 t.year
    let month := natValue 10 t.month
    let day := natValue 10 t.day
    match t.time with
    | none => do
      checkDay year month day
      return ⟨year, month, day, none⟩
    | some (h, m, s, fraction) => do
      let zone ← zoneOf t.zone
      checkDay year month day
      checkTime (natValue 10 h) (natValue 10 m) (natValue 10 s)
      return ⟨year, month, day,
        some ⟨natValue 10 h, natValue 10 m, natValue 10 s, microseconds fraction, zone⟩⟩

/-- The floating-point number of the node `node`. -/
def Scalar.ofFloatText (node : Nat) (text : List CodePoint) : Except Fault Scalar := do
  let f ← Yaml.float text
  return if f.isNaN then .nan (if isCommonNan text then none else some node) else .float f

/-- The scalar of a type that the text of the node `node` stands for; none if the type is not one of
scalars. -/
def Scalar.ofText (node : Nat) (text : List CodePoint) : Tag → Option (Except Fault Scalar)
  | .null => some (.ok .null)
  | .bool => some (.bool <$> boolean text)
  | .int => some (.int <$> integer text)
  | .float => some (Scalar.ofFloatText node text)
  | .text => some (.ok (.text text))
  | .timestamp => some (.timestamp <$> moment (Text.chars text))
  | .binary =>
    let cs := Text.chars text
    some (match cs.all (·.toNat < 128), Text.base64? cs with
      | true, some b => .ok (.bytes b)
      | _, _ => .error .malformed)
  | _ => none

/-- The days from the beginning of the calendar to a day. -/
def dayNumber (year month day : Nat) : Nat :=
  let before := year - 1
  before * 365 + before / 4 - before / 100 + before / 400
    + (List.range (month - 1)).foldl (fun days m => days + daysIn year (m + 1)) 0 + day

/-- The microseconds from the beginning of the calendar to a time of a day, less the distance from
universal time. -/
def instant (t : Timestamp) (time : TimeOfDay) (zone : Int) : Int :=
  let minutes : Int := dayNumber t.year t.month t.day * 1440 + time.hour * 60 + time.minute - zone
  (minutes * 60 + time.second) * 1000000 + time.microsecond

/-- Two moments are the same: with distances from universal time, if they are at the same instant, and
otherwise if they are written alike. -/
def Timestamp.same (s t : Timestamp) : Bool :=
  match s.time, t.time with
  | some a, some b =>
    match a.zone, b.zone with
    | some y, some z => instant s a y = instant t b z
    | _, _ => s = t
  | _, _ => s = t

namespace Scalar

/-- The name of the type of a scalar. -/
def typeName : Scalar → String
  | null => "NoneType"
  | bool _ => "bool"
  | int _ => "int"
  | float _ => "float"
  | nan _ => "float"
  | text _ => "str"
  | bytes _ => "bytes"
  | timestamp t => if t.time.isSome then "datetime" else "date"

/-- One byte between the quotes `q`. -/
def escapeByte (q : Char) (b : UInt8) : List Char :=
  let c := Char.ofNat b.toNat
  if 128 ≤ b.toNat then '\\' :: 'x' :: Text.hexadecimal 2 b.toNat else Text.escapeQuoted q c

def bytesText (bs : Text.Bytes) : String :=
  let q := Text.quoteFor (bs.map fun b => Char.ofNat b.toNat)
  String.ofList ('b' :: q :: bs.flatMap (escapeByte q) ++ [q])

/-- The numbers of a time of day; seconds and their fraction are left out at the end if they are
zero. -/
def timeNumbers (t : TimeOfDay) : List Nat :=
  if t.microsecond != 0 then [t.hour, t.minute, t.second, t.microsecond]
  else if t.second != 0 then [t.hour, t.minute, t.second]
  else [t.hour, t.minute]

def zoneText (minutes : Int) : String :=
  if minutes = 0 then "datetime.timezone.utc" else "datetime.timezone(" ++ spanText minutes ++ ")"

def timestampText (t : Timestamp) : String :=
  let commas (ns : List Nat) := String.intercalate ", " (ns.map Text.decimal)
  match t.time with
  | none => "datetime.date(" ++ commas [t.year, t.month, t.day] ++ ")"
  | some time =>
    "datetime.datetime(" ++ commas ([t.year, t.month, t.day] ++ timeNumbers time)
      ++ (match time.zone with
          | none => ""
          | some z => ", tzinfo=" ++ zoneText z) ++ ")"

/-- A scalar as messages show it. -/
def shown : Scalar → String
  | null => "None"
  | bool b => if b then "True" else "False"
  | int i => Text.signedDecimal i
  | float f => Decimal.shortest f
  | nan _ => "nan"
  | text s => Text.quotedPoints s
  | bytes b => bytesText b
  | timestamp t => timestampText t

/-- The integer that a scalar is equal to, if there is one. -/
def whole? : Scalar → Option Int
  | bool b => some (if b then 1 else 0)
  | int i => some i
  | float f =>
    if f.isNaN || f.isInf || f.floor != f then none
    else
      let b := Decimal.Binary.ofFloat f
      let magnitude : Nat := b.m * Nat.pow 2 b.q.toNat / Nat.pow 2 (-b.q).toNat
      some (if f < 0.0 then -(magnitude : Int) else magnitude)
  | _ => none

/-- Two scalars are the same key: numbers are compared by their value. -/
def sameKey (a b : Scalar) : Bool :=
  match a, b with
  | null, null => true
  | text s, text t => s = t
  | bytes s, bytes t => s = t
  | timestamp s, timestamp t => s.same t
  | float f, float g => f == g
  | nan m, nan n => m = n
  | _, _ =>
    match a.whole?, b.whole? with
    | some i, some j => i = j
    | _, _ => false

end Scalar

end Stubsmith.Yaml
