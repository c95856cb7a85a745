import Stubsmith.Text.CodePoint
import Stubsmith.Text.Utf8
import Stubsmith.Yaml.Cursor
import Stubsmith.Yaml.Fault

/-!
# Lexemes

The parts of a YAML text that are read without regard to what stands around them: scalars in their
five styles, names of anchors, tags and directives. Each reader takes the place where its lexeme
begins and gives what it stands for and the place after it.
-/
namespace Stubsmith.Yaml

open Text (CodePoint points)

/-- A letter, a digit, a dash or an underscore. -/
def isNameChar (c : Char) : Bool := c.isAlphanum || c = '-' || c = '_'

/-- Ends a line of its own: spaces and a comment may come before the break, nothing else. -/
def endLine (c : Cursor) : Except Fault Cursor :=
  let c := c.skipSpaces.skipComment
  if atBreak (c.peek 0) then .ok c.skipBreak else .error .malformed

/-- The characters that may follow the name of an anchor. -/
def endsAnchor (c : Option Char) : Bool :=
  atBlank c || c.all ['?', ':', ',', ']', '\x7d', '%', '@', '\x60'].contains

/-- The name after an ampersand or an asterisk. -/
def readAnchor (c : Cursor) : Except Fault (String × Cursor) :=
  let (name, after) := c.advance.span isNameChar
  if name.isEmpty || !endsAnchor (after.peek 0) then .error .malformed
  else .ok (String.ofList name, after)

/-- The number that some hexadecimal digits stand for. -/
def hexValue (cs : List Char) : Nat :=
  cs.foldl (fun n c => n * 16 +
    (if c.isDigit then c.toNat - 48 else if c.toNat < 97 then c.toNat - 55 else c.toNat - 87)) 0

def isHexDigit (c : Char) : Bool :=
  c.isDigit || ('a' ≤ c && c ≤ 'f') || ('A' ≤ c && c ≤ 'F')

/-- Exactly `n` hexadecimal digits. -/
def readHex (n : Nat) (c : Cursor) : Except Fault (Nat × Cursor) :=
  let digits := c.rest.take n
  if digits.length = n && digits.all isHexDigit then .ok (hexValue digits, c.skip n)
  else .error .malformed

/-- The characters of a tag that stand for themselves. -/
def isTagChar (c : Char) : Bool :=
  c.isAlphanum || ("-;/?:@&=+$,_.!~*'()[]".toList).contains c

/-- The bytes of a run of percent escapes. -/
def readEscapedBytes : (fuel : Nat) → Cursor → Except Fault (Text.Bytes × Cursor)
  | 0, _ => .error .malformed
  | fuel + 1, c =>
    if c.sees '%' then do
      let (b, c) ← readHex 2 c.advance
      let (bs, c) ← readEscapedBytes fuel c
      return (UInt8.ofNat b :: bs, c)
    else .ok ([], c)

/-- The characters of a tag, which may be none. -/
def readTagChars : (fuel : Nat) → Cursor → Except Fault (List Char × Cursor)
  | 0, _ => .error .malformed
  | fuel + 1, c =>
    let (run, c) := c.span isTagChar
    if c.sees '%' then do
      let (bytes, c) ← readEscapedBytes (c.rest.length + 1) c
      match Text.decode bytes with
      | .error _ => .error .malformed
      | .ok cs => do
        let (more, c) ← readTagChars fuel c
        return (run ++ cs ++ more, c)
    else .ok (run, c)

/-- The characters of a tag, of which there is at least one, written as itself or as an escape. -/
def readUri (c : Cursor) : Except Fault (String × Cursor) := do
  let (cs, after) ← readTagChars (c.rest.length + 1) c
  if after.index = c.index then .error .malformed else return (String.ofList cs, after)

/-- A handle: an exclamation mark by itself, or a name between two of them. -/
def readHandle (c : Cursor) : Except Fault (String × Cursor) :=
  if !c.sees '!' then .error .malformed
  else if c.peek 1 = some ' ' then .ok ("!", c.advance)
  else
    let (name, after) := c.advance.span isNameChar
    if after.sees '!' then .ok (String.ofList ('!' :: name ++ ['!']), after.advance)
    else .error .malformed

/-- A tag as it is written: the handle, if it has one, and what comes after it. -/
structure TagText where
  handle : Option String
  suffix : String
  deriving DecidableEq, Repr

/-- What a tag is made of, without a look at what follows it. -/
def readTagText (c : Cursor) : Except Fault (TagText × Cursor) :=
  if c.peek 1 = some '<' then do
    let (uri, c) ← readUri (c.skip 2)
    if c.sees '>' then return (⟨none, uri⟩, c.advance) else .error .malformed
  else if atBlank (c.peek 1) then .ok (⟨none, "!"⟩, c.advance)
  else do
    let word := c.rest.tail.takeWhile fun ch => !atSpace (some ch)
    let (handle, c) ← if word.contains '!' then readHandle c else .ok ("!", c.advance)
    let (suffix, c) ← readUri c
    return (⟨some handle, suffix⟩, c)

def readTag (c : Cursor) : Except Fault (TagText × Cursor) := do
  let (tag, c) ← readTagText c
  if atSpace (c.peek 0) then return (tag, c) else .error .malformed

/-- A line that says how to read the document after it. -/
inductive Directive
  | version (major : Nat)
  | tag (handle uri : String)
  | other
  deriving DecidableEq, Repr

/-- A natural number of a directive, which may not be too long. -/
def readDigits (c : Cursor) : Except Fault (Nat × Cursor) :=
  let (digits, after) := c.span Char.isDigit
  if digits.isEmpty then .error .malformed
  else if digitLimit < digits.length then .error (.tooManyDigits digits.length)
  else .ok (digits.foldl (fun n d => n * 10 + (d.toNat - 48)) 0, after)

def readVersion (c : Cursor) : Except Fault (Directive × Cursor) := do
  let (major, c) ← readDigits c.skipSpaces
  if !c.sees '.' then .error .malformed
  else do
    let (_, c) ← readDigits c.advance
    if atSpace (c.peek 0) then return (.version major, c) else .error .malformed

def readTagDirective (c : Cursor) : Except Fault (Directive × Cursor) := do
  let (handle, c) ← readHandle c.skipSpaces
  if !c.sees ' ' then .error .malformed
  else do
    let (uri, c) ← readUri c.skipSpaces
    if atSpace (c.peek 0) then return (.tag handle uri, c) else .error .malformed

/-- The directive that begins with the percent sign here, through the end of its line. -/
def readDirective (c : Cursor) : Except Fault (Directive × Cursor) := do
  let (name, c) := c.advance.span isNameChar
  if name.isEmpty || !atSpace (c.peek 0) then .error .malformed
  else do
    let (directive, c) ←
      if name = "YAML".toList then readVersion c
      else if name = "TAG".toList then readTagDirective c
      else .ok (.other, c.skipWhile (!isBreak ·))
    return (directive, ← endLine c)

/-- A plain scalar ends before `ch` if `next` comes after it. -/
def endsPlain (flow : Bool) (ch : Char) (next : Option Char) : Bool :=
  atBlank (some ch)
    || (ch = ':' && (atBlank next || (flow && next.any [',', '[', ']', '\x7b', '\x7d'].contains)))
    || (flow && [',', '?', '[', ']', '\x7b', '\x7d'].contains ch)

/-- The characters of a plain scalar up to the next blank. -/
def plainRun (flow : Bool) : List Char → List Char
  | [] => []
  | c :: cs => if endsPlain flow c cs.head? then [] else c :: plainRun flow cs

/-- The breaks of a plain scalar with the spaces around them; none if a separator begins a line. -/
def plainBreaks : (fuel : Nat) → Cursor → Option (List Char) × Cursor
  | 0, c => (some [], c)
  | fuel + 1, c =>
    let c := c.skipSpaces
    match c.lineBreak? with
    | none => (some [], c)
    | some (ch, c) =>
      if c.seesSeparator then (none, c)
      else
        let (more, c) := plainBreaks fuel c
        (more.map (ch :: ·), c)

/-- A first break and those after it, as they count in a scalar: a lone line feed is a space. -/
def fold (first : Char) (others : List Char) : List Char :=
  if first = '\n' then (if others.isEmpty then [' '] else others) else first :: others

/-- What stands between two runs of a plain scalar. -/
structure PlainGap where
  /-- Its characters; none if the scalar ends. -/
  chars : List Char
  /-- It holds a break. -/
  breaks : Bool
  after : Cursor

def plainGap (c : Cursor) : PlainGap :=
  let (spaces, c) := c.span (· = ' ')
  match c.lineBreak? with
  | none => ⟨spaces, false, c⟩
  | some (ch, c) =>
    if c.seesSeparator then ⟨[], true, c⟩
    else match plainBreaks (c.rest.length + 1) c with
      | (none, c) => ⟨[], true, c⟩
      | (some others, c) => ⟨fold ch others, true, c⟩

/-- A plain scalar, and whether it ended at the beginning of a line. -/
structure Plain where
  chars : List Char
  freshLine : Bool
  after : Cursor

/-- The runs of a plain scalar after the gap `gap`; in the block style it ends left of `indent`. -/
def readPlain (flow : Bool) (indent : Int) : (fuel : Nat) → List Char → Cursor → Bool → Plain
  | 0, _, c, fresh => ⟨[], fresh, c⟩
  | fuel + 1, gap, c, fresh =>
    if c.sees '#' then ⟨[], fresh, c⟩
    else
      let run := plainRun flow c.rest
      if run.isEmpty then ⟨[], fresh, c⟩
      else
        let between := plainGap (c.skip run.length)
        let after := between.after
        if between.chars.isEmpty || after.sees '#' || (!flow && (after.column : Int) < indent) then
          ⟨gap ++ run, between.breaks, after⟩
        else
          let others := readPlain flow indent fuel between.chars after between.breaks
          { others with chars := gap ++ run ++ others.chars }

/-- The characters that a backslash gives another meaning. -/
def escapes : List (Char × Char) :=
  [('0', '\x00'), ('a', '\x07'), ('b', '\x08'), ('t', '\t'), ('\t', '\t'), ('n', '\n'), ('v', '\x0b'),
   ('f', '\x0c'), ('r', '\r'), ('e', '\x1b'), (' ', ' '), ('"', '"'), ('\\', '\\'), ('/', '/'),
   ('N', '\x85'), ('_', '\xa0'), ('L', '\u2028'), ('P', '\u2029')]

/-- How many hexadecimal digits follow the letter of an escape. -/
def escapeWidth : Char → Option Nat
  | 'x' => some 2
  | 'u' => some 4
  | 'U' => some 8
  | _ => none

/-- The breaks of a quoted scalar with the blanks around them; no separator may begin a line. -/
def quotedBreaks : (fuel : Nat) → Cursor → Except Fault (List Char × Cursor)
  | 0, _ => .error .malformed
  | fuel + 1, c =>
    if c.seesSeparator then .error .malformed
    else
      let c := c.skipWhile fun ch => ch = ' ' || ch = '\t'
      match c.lineBreak? with
      | none => .ok ([], c)
      | some (ch, c) => do
        let (more, c) ← quotedBreaks fuel c
        return (ch :: more, c)

/-- What a backslash and what follows it stand for. -/
def readEscape (c : Cursor) : Except Fault (List CodePoint × Cursor) :=
  match c.peek 0 with
  | none => .error .malformed
  | some ch =>
    match escapes.lookup ch with
    | some meant => .ok ([.char meant], c.advance)
    | none =>
      match escapeWidth ch with
      | some width => do
        let (code, c) ← readHex width c.advance
        if code < 0x110000 then return ([.ofNat code], c) else .error (.character code)
      | none =>
        match c.lineBreak? with
        | some (_, c) => do
          let (breaks, c) ← quotedBreaks (c.rest.length + 1) c
          return (points breaks, c)
        | none => .error .malformed

/-- The blanks within a quoted scalar. -/
def readQuotedBlanks (c : Cursor) : Except Fault (List Char × Cursor) :=
  let (blanks, c) := c.span fun ch => ch = ' ' || ch = '\t'
  match c.lineBreak? with
  | some (ch, c) => do
    let (others, c) ← quotedBreaks (c.rest.length + 1) c
    return (fold ch others, c)
  | none => if c.rest.isEmpty then .error .malformed else .ok (blanks, c)

/-- What a quoted scalar holds from here to the closing quote. -/
def readQuoted (quote : Char) : (fuel : Nat) → Cursor → Except Fault (List CodePoint × Cursor)
  | 0, _ => .error .malformed
  | fuel + 1, c =>
    match c.peek 0 with
    | none => .error .malformed
    | some ch =>
      if ch = quote then
        if quote = '\x27' && c.peek 1 = some '\x27' then do
          let (more, c) ← readQuoted quote fuel (c.skip 2)
          return (.char '\x27' :: more, c)
        else .ok ([], c.advance)
      else do
        let (here, c) ←
          if ch = '\\' && quote = '"' then readEscape c.advance
          else if atBlank (some ch) then do
            let (blanks, c) ← readQuotedBlanks c
            pure (points blanks, c)
          else .ok ([.char ch], c.advance)
        let (more, c) ← readQuoted quote fuel c
        return (here ++ more, c)

/-- What becomes of the breaks at the end of a block scalar. -/
inductive Chomping
  | clip
  | strip
  | keep
  deriving DecidableEq, Repr

def chomping? : Option Char → Option Chomping
  | some '+' => some .keep
  | some '-' => some .strip
  | _ => none

/-- The digit that states an indentation; zero states none. -/
def readIncrement (c : Cursor) : Except Fault (Option Nat × Cursor) :=
  match c.peek 0 with
  | some d =>
    if d = '0' then .error .malformed
    else if d.isDigit then .ok (some (d.toNat - 48), c.advance)
    else .ok (none, c)
  | none => .ok (none, c)

/-- The indicators of a block scalar, in either order. -/
def readIndicators (c : Cursor) : Except Fault ((Chomping × Option Nat) × Cursor) := do
  let (result, c) ←
    match chomping? (c.peek 0) with
    | some chomping => do
      let (increment, c) ← readIncrement c.advance
      pure ((chomping, increment), c)
    | none => do
      let (increment, c) ← readIncrement c
      match increment, chomping? (c.peek 0) with
      | some n, some chomping => pure ((chomping, some n), c.advance)
      | _, _ => pure ((Chomping.clip, increment), c)
  if atSpace (c.peek 0) then return (result, c) else .error .malformed

/-- The blank lines at the head of a block scalar: their breaks and the furthest column reached. -/
def leadingBreaks : (fuel : Nat) → Nat → Cursor → List Char × Nat × Cursor
  | 0, furthest, c => ([], furthest, c)
  | fuel + 1, furthest, c =>
    let c := c.skipSpaces
    let furthest := max furthest c.column
    match c.lineBreak? with
    | none => ([], furthest, c)
    | some (ch, c) =>
      let (more, furthest, c) := leadingBreaks fuel furthest c
      (ch :: more, furthest, c)

/-- Past the spaces here, as far as column `indent`. -/
def skipIndent (indent : Nat) (c : Cursor) : Cursor :=
  c.skip (min (c.rest.takeWhile (· = ' ')).length (indent - c.column))

/-- The breaks here, each with the spaces before the next line as far as column `indent`. -/
def blockBreaks (indent : Nat) : (fuel : Nat) → Cursor → List Char × Cursor
  | 0, c => ([], c)
  | fuel + 1, c =>
    let c := skipIndent indent c
    match c.lineBreak? with
    | none => ([], c)
    | some (ch, c) =>
      let (more, c) := blockBreaks indent fuel c
      (ch :: more, c)

/-- What a line of a block scalar begins with decides whether breaks around it are folded. -/
def isIndented (c : Cursor) : Bool := c.sees ' ' || c.sees '\t'

/-- The end of a block scalar: the break of its last line and the breaks after it. -/
def chomp (mode : Chomping) (last : List Char) (breaks : List Char) : List Char :=
  match mode with
  | .strip => []
  | .clip => last
  | .keep => last ++ breaks

/-- The lines of a block scalar, each after the breaks before it. -/
def blockLines (folded : Bool) (mode : Chomping) (indent : Nat) :
    (fuel : Nat) → (breaks : List Char) → Cursor → List Char × Cursor
  | 0, _, c => ([], c)
  | fuel + 1, breaks, c =>
    let deeper := isIndented c
    let (line, c) := c.span (!isBreak ·)
    let (last, c) := match c.lineBreak? with
      | some (ch, c) => ([ch], c)
      | none => ([], c)
    let (next, c) := blockBreaks indent (c.rest.length + 1) c
    if c.column = indent && !c.rest.isEmpty then
      let glue :=
        if folded && last = ['\n'] && !deeper && !isIndented c then
          (if next.isEmpty then [' '] else [])
        else last
      let (more, c) := blockLines folded mode indent fuel next c
      (breaks ++ line ++ glue ++ more, c)
    else (breaks ++ line ++ chomp mode last next, c)

/-- The block scalar that begins with the indicator here, in a collection indented by `parent`. -/
def readBlock (folded : Bool) (parent : Int) (c : Cursor) : Except Fault (List Char × Cursor) := do
  let ((mode, increment), c) ← readIndicators c.advance
  let c ← endLine c
  let least := (max (parent + 1) 1).toNat
  let (indent, breaks, c) :=
    match increment with
    | some n =>
      let indent := least + n - 1
      let (breaks, c) := blockBreaks indent (c.rest.length + 1) c
      (indent, breaks, c)
    | none =>
      let (breaks, furthest, c) := leadingBreaks (c.rest.length + 1) 0 c
      (max least furthest, breaks, c)
  if c.column = indent && !c.rest.isEmpty then
    return blockLines folded mode indent (c.rest.length + 1) breaks c
  else return (chomp mode [] breaks, c)

end Stubsmith.Yaml
