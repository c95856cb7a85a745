import Stubsmith.Text.Blank

/-!
# Tags

The type of a node. A plain scalar without a tag is a boolean, a number, null, a moment or a merge key
if it is written like one, and a text otherwise. One of the three marks that introduce properties and
aliases, by itself, has a type of which no value is known.
-/
namespace Stubsmith.Yaml

inductive Tag
  | null
  | bool
  | int
  | float
  | binary
  | timestamp
  | text
  | sequence
  | mapping
  | set
  | orderedMap
  | pairs
  | merge
  | default
  | unknown
  deriving DecidableEq, Repr

namespace Tag

/-- The tags of YAML below the name that they share. -/
def known : List (String × Tag) :=
  [("null", null), ("bool", bool), ("int", int), ("float", float), ("binary", binary),
   ("timestamp", timestamp), ("str", text), ("seq", sequence), ("map", mapping), ("set", set),
   ("omap", orderedMap), ("pairs", pairs), ("merge", merge), ("value", default)]

/-- The name that the tags of YAML share. -/
def family : String := "tag:yaml.org,2002:"

def ofUri (uri : String) : Tag :=
  ((known.map fun (name, t) => (family ++ name, t)).lookup uri).getD unknown

def isDigitOrGap (c : Char) : Bool := c.isDigit || c = '_'

/-- A digit, and then digits and underscores. -/
def isDigits : List Char → Bool
  | c :: cs => c.isDigit && cs.all isDigitOrGap
  | [] => false

/-- The text without a leading sign. -/
def unsigned : List Char → List Char
  | '+' :: cs => cs
  | '-' :: cs => cs
  | cs => cs

/-- The minutes or seconds of a number to base sixty. -/
def isSixtieth : List Char → Bool
  | [c] => c.isDigit
  | [c, d] => '0' ≤ c && c ≤ '5' && d.isDigit
  | _ => false

/-- A number to base sixty, its parts divided by colons, the first of which satisfies `lead`. -/
def isSexagesimal (lead : List Char → Bool) (cs : List Char) : Bool :=
  match Text.fields ':' cs with
  | first :: second :: others => lead first && isSixtieth second && others.all isSixtieth
  | _ => false

/-- Some characters, each of which satisfies `p`. -/
def isRun (p : Char → Bool) (cs : List Char) : Bool := !cs.isEmpty && cs.all p

/-- A natural number as it is written by itself: zero, or digits of which the first is not zero. -/
def isNatural : List Char → Bool
  | ['0'] => true
  | c :: cs => c.isDigit && c != '0' && cs.all isDigitOrGap
  | [] => false

def isInteger (cs : List Char) : Bool :=
  match unsigned cs with
  | '0' :: 'b' :: ds => isRun (fun c => c = '0' || c = '1' || c = '_') ds
  | '0' :: 'x' :: ds =>
    isRun (fun c => isDigitOrGap c || ('a' ≤ c && c ≤ 'f') || ('A' ≤ c && c ≤ 'F')) ds
  | '0' :: ds => ds.all fun c => ('0' ≤ c && c ≤ '7') || c = '_'
  | ds => isNatural ds || isSexagesimal isNatural ds

/-- The mark, the sign and the digits of an exponent, or nothing. -/
def isExponent : List Char → Bool
  | [] => true
  | e :: s :: ds => (e = 'e' || e = 'E') && (s = '+' || s = '-') && isRun Char.isDigit ds
  | _ => false

/-- Digits and underscores, and perhaps an exponent. -/
def isFraction (cs : List Char) : Bool := isExponent (cs.dropWhile isDigitOrGap)

def isFloat (cs : List Char) : Bool :=
  let whole := (unsigned cs).takeWhile (· != '.')
  match (unsigned cs).dropWhile (· != '.') with
  | [] => false
  | _ :: after =>
    (isDigits whole && isFraction after)
      || (cs.head? = some '.' && after.head?.any Char.isDigit && isFraction after)
      || (isSexagesimal isDigits whole && after.all isDigitOrGap)
      || (whole.isEmpty && ["inf", "Inf", "INF"].contains (String.ofList after))
      || (cs.head? = some '.' && ["nan", "NaN", "NAN"].contains (String.ofList after))

def booleans : List String :=
  ["yes", "Yes", "YES", "no", "No", "NO", "true", "True", "TRUE", "false", "False", "FALSE",
   "on", "On", "ON", "off", "Off", "OFF"]

/-- One or two digits at the head of a text, and the rest. -/
def oneOrTwo : List Char → Option (List Char × List Char)
  | c :: d :: cs =>
    if c.isDigit then (if d.isDigit then some ([c, d], cs) else some ([c], d :: cs)) else none
  | [c] => if c.isDigit then some ([c], []) else none
  | [] => none

/-- Exactly `n` digits at the head of a text, and the rest. -/
def exactly (n : Nat) (cs : List Char) : Option (List Char × List Char) :=
  if (cs.take n).length = n && (cs.take n).all Char.isDigit then some (cs.take n, cs.drop n) else none

/-- The rest of a text after the character `c`. -/
def after (c : Char) : List Char → Option (List Char)
  | d :: cs => if d = c then some cs else none
  | [] => none

/-- A moment as it is written: digits throughout. -/
structure MomentText where
  year : List Char
  month : List Char
  day : List Char
  /-- Hour, minute, second and fraction. -/
  time : Option (List Char × List Char × List Char × List Char)
  /-- The distance from universal time: whether it is negative, hours and minutes. -/
  zone : Option (Bool × List Char × List Char)

/-- The distance from universal time, after blanks, up to the end of the text. -/
def zoneText (cs : List Char) : Option (Option (Bool × List Char × List Char)) :=
  match cs with
  | [] => some none
  | _ =>
    match cs.dropWhile fun c => c = ' ' || c = '\t' with
    | ['Z'] => some (some (false, [], []))
    | s :: rest =>
      if s = '+' || s = '-' then do
        let (hours, rest) ← oneOrTwo rest
        match rest with
        | [] => some (some (s = '-', hours, []))
        | ':' :: rest => do
          let (minutes, rest) ← exactly 2 rest
          if rest.isEmpty then some (some (s = '-', hours, minutes)) else none
        | _ => none
      else none
    | [] => none

/-- A moment, from its year to the end of the text. -/
def momentText? (cs : List Char) : Option MomentText := do
  let (year, cs) ← exactly 4 cs
  let (month, cs) ← oneOrTwo (← after '-' cs)
  let (day, cs) ← oneOrTwo (← after '-' cs)
  if cs.isEmpty then return ⟨year, month, day, none, none⟩
  else do
    let rest ← match cs with
      | 'T' :: cs => some cs
      | 't' :: cs => some cs
      | cs =>
        if cs.head?.any (fun c => c = ' ' || c = '\t') then
          some (cs.dropWhile fun c => c = ' ' || c = '\t')
        else none
    let (hour, cs) ← oneOrTwo rest
    let (minute, cs) ← exactly 2 (← after ':' cs)
    let (second, cs) ← exactly 2 (← after ':' cs)
    let (fraction, cs) := match cs with
      | '.' :: cs => (cs.takeWhile Char.isDigit, cs.dropWhile Char.isDigit)
      | cs => ([], cs)
    return ⟨year, month, day, some (hour, minute, second, fraction), ← zoneText cs⟩

/-- A moment whose type need not be stated: a day by itself has two digits for its month and two for
its day. -/
def isMoment (cs : List Char) : Bool :=
  match momentText? cs with
  | some m => m.time.isSome || (m.month.length = 2 && m.day.length = 2)
  | none => false

/-- A text without the line feed at its end. -/
def dropLastFeed (cs : List Char) : List Char :=
  if cs.getLast? = some '\n' && 1 < cs.length then cs.dropLast else cs

/-- The type of a scalar by the way it is written. -/
def ofPlain (text : List Char) : Tag :=
  let cs := dropLastFeed text
  if booleans.contains (String.ofList cs) then bool
  else if isFloat cs then float
  else if isInteger cs then int
  else if cs = ['<', '<'] then merge
  else if ["", "~", "null", "Null", "NULL"].contains (String.ofList cs) then null
  else if isMoment cs then timestamp
  else if cs = ['='] then default
  else if [['!'], ['&'], ['*']].contains cs then unknown
  else .text

end Tag

end Stubsmith.Yaml
