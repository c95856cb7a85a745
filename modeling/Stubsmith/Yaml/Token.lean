import Stubsmith.Yaml.Lexeme

/-!
# Tokens and layout

The tokens of a YAML text. Indentation opens and closes block collections, and a key is recognised
only at the colon after it: until then its place among the tokens is kept as a pending key. A pending
key lasts to the end of its line and for 1024 characters; one that the layout demands and that does
not get its colon is an error. A reader of the tokens meets a fault of the text only after the tokens
that were settled before it, so a fault of its own can come first.
-/
namespace Stubsmith.Yaml

open Text (CodePoint points)

inductive Token
  | directive (d : Directive)
  | documentStart
  | documentEnd
  | streamEnd
  | blockSequence
  | blockMapping
  | blockEnd
  | flowSequence
  | flowSequenceEnd
  | flowMapping
  | flowMappingEnd
  | blockEntry
  | flowEntry
  | key
  | value
  | alias (name : String)
  | anchor (name : String)
  | tag (t : TagText)
  | scalar (text : List CodePoint) (plain : Bool)
  deriving DecidableEq, Repr

/-- A token that may turn out to begin a key. -/
structure PendingKey where
  /-- The number of the token. -/
  number : Nat
  /-- Nothing but a key can stand there. -/
  required : Bool
  start : Cursor

/-- A text that is being divided into tokens. -/
structure Layout where
  cursor : Cursor
  tokens : Array Token := #[]
  /-- How many flow collections are open. -/
  depth : Nat := 0
  /-- The column of the innermost block collection, -1 outside of any. -/
  indent : Int := -1
  /-- The columns of the block collections around it. -/
  outer : List Int := []
  /-- A key may begin here. -/
  keyAllowed : Bool := true
  /-- At most one pending key for each depth. -/
  pending : List (Nat × PendingKey) := []
  /-- The end of the text has been reached. -/
  ended : Bool := false

namespace Layout

def inFlow (s : Layout) : Bool := 0 < s.depth

def column (s : Layout) : Int := s.cursor.column

def push (s : Layout) (t : Token) : Layout := { s with tokens := s.tokens.push t }

/-- Drops the pending keys that can no longer be followed by their colon. -/
def dropStale (s : Layout) : Except Fault Layout :=
  let isFresh : Nat × PendingKey → Bool := fun (_, k) =>
    k.start.line = s.cursor.line && s.cursor.index - k.start.index ≤ 1024
  if s.pending.any fun p => !isFresh p && p.2.required then .error .malformed
  else .ok { s with pending := s.pending.filter isFresh }

/-- Gives up the pending key of the present depth. -/
def dropPending (s : Layout) : Except Fault Layout :=
  match s.pending.lookup s.depth with
  | some k =>
    if k.required then .error .malformed
    else .ok { s with pending := s.pending.filter (·.1 != s.depth) }
  | none => .ok s

/-- The next token may begin a key. -/
def savePending (s : Layout) : Except Fault Layout :=
  if s.keyAllowed then do
    let required := !s.inFlow && s.indent = s.column
    let s ← s.dropPending
    return { s with pending := (s.depth, ⟨s.tokens.size, required, s.cursor⟩) :: s.pending }
  else .ok s

/-- Closes the block collections that stand right of `column`. -/
def closeTo (column : Int) : List Int → Layout → Layout
  | [], s => s
  | i :: outer, s =>
    if column < s.indent then closeTo column outer ({ s with indent := i, outer }.push .blockEnd) else s

def unwind (s : Layout) (column : Int) : Layout :=
  if s.inFlow then s else closeTo column s.outer s

/-- Opens a block collection at `column` if it stands right of the present one; its first token goes
in before the token `number`. -/
def openBlock (s : Layout) (column : Int) (number : Nat) (t : Token) : Layout :=
  if s.indent < column then
    { s with outer := s.indent :: s.outer, indent := column
             tokens := s.tokens.insertIdxIfInBounds number t }
  else s

/-- Past blanks and comments. In a block collection a new line lets a key begin. -/
def toNextToken : (fuel : Nat) → Layout → Layout
  | 0, s => s
  | fuel + 1, s =>
    let cursor := s.cursor.skipSpaces.skipComment
    match cursor.lineBreak? with
    | some (_, after) =>
      toNextToken fuel { s with cursor := after, keyAllowed := s.keyAllowed || !s.inFlow }
    | none => { s with cursor }

/-- A token of one character. -/
def takeMark (s : Layout) (t : Token) : Layout := { s with cursor := s.cursor.advance }.push t

/-- The end of the text. -/
def finish (s : Layout) : Except Fault Layout := do
  let s ← (s.unwind (-1)).dropPending
  return { s with keyAllowed := false, pending := [], ended := true }.push .streamEnd

def takeDirective (s : Layout) : Except Fault Layout := do
  let s ← (s.unwind (-1)).dropPending
  let (d, cursor) ← readDirective s.cursor
  return { s with keyAllowed := false, cursor }.push (.directive d)

def takeSeparator (s : Layout) (t : Token) : Except Fault Layout := do
  let s ← (s.unwind (-1)).dropPending
  return { s with keyAllowed := false, cursor := s.cursor.skip 3 }.push t

def openFlow (s : Layout) (t : Token) : Except Fault Layout := do
  let s ← s.savePending
  return { s with depth := s.depth + 1, keyAllowed := true }.takeMark t

/-- A closing bracket. One that closes nothing is kept for the reader of the tokens to refuse. -/
def closeFlow (s : Layout) (t : Token) : Except Fault Layout := do
  let s ← s.dropPending
  return { s with depth := s.depth - 1, keyAllowed := false }.takeMark t

def takeFlowEntry (s : Layout) : Except Fault Layout := do
  let s ← { s with keyAllowed := true }.dropPending
  return s.takeMark .flowEntry

def takeBlockEntry (s : Layout) : Except Fault Layout := do
  if !s.inFlow && !s.keyAllowed then .error .malformed
  else do
    let s := if s.inFlow then s else s.openBlock s.column s.tokens.size .blockSequence
    let s ← { s with keyAllowed := true }.dropPending
    return s.takeMark .blockEntry

def takeKey (s : Layout) : Except Fault Layout := do
  if !s.inFlow && !s.keyAllowed then .error .malformed
  else do
    let s := if s.inFlow then s else s.openBlock s.column s.tokens.size .blockMapping
    let s ← { s with keyAllowed := !s.inFlow }.dropPending
    return s.takeMark .key

/-- The colon that makes a key of what came before it, or that begins a value of its own. -/
def takeValue (s : Layout) : Except Fault Layout := do
  match s.pending.lookup s.depth with
  | some k =>
    let s := { s with pending := s.pending.filter (·.1 != s.depth), keyAllowed := false
                      tokens := s.tokens.insertIdxIfInBounds k.number .key }
    let s := if s.inFlow then s else s.openBlock k.start.column k.number .blockMapping
    return s.takeMark .value
  | none =>
    if !s.inFlow && !s.keyAllowed then .error .malformed
    else do
      let s := if s.inFlow then s else s.openBlock s.column s.tokens.size .blockMapping
      let s ← { s with keyAllowed := !s.inFlow }.dropPending
      return s.takeMark .value

/-- A token that may begin a key and after which none may begin. -/
def takeWord {α : Type} (s : Layout) (read : Cursor → Except Fault (α × Cursor)) (token : α → Token) :
    Except Fault Layout := do
  let s ← s.savePending
  let (a, cursor) ← read s.cursor
  return { s with keyAllowed := false, cursor }.push (token a)

def takeBlockScalar (s : Layout) (folded : Bool) : Except Fault Layout := do
  let s ← { s with keyAllowed := true }.dropPending
  let (text, cursor) ← readBlock folded s.indent s.cursor
  return { s with cursor }.push (.scalar (points text) false)

def takeQuoted (s : Layout) (quote : Char) : Except Fault Layout :=
  s.takeWord (fun c => readQuoted quote (c.rest.length + 1) c.advance) (.scalar · false)

def takePlain (s : Layout) : Except Fault Layout := do
  let s ← s.savePending
  let p := readPlain s.inFlow (s.indent + 1) (s.cursor.rest.length + 1) [] s.cursor false
  return { s with keyAllowed := p.freshLine, cursor := p.after }.push (.scalar (points p.chars) true)

/-- The characters that do not begin a plain scalar. -/
def isIndicator (c : Char) : Bool :=
  ("-?:,[]#&*!|>'\"%@".toList ++ ['\x7b', '\x7d', '\x60']).contains c

def beginsPlain (s : Layout) (ch : Char) : Bool :=
  (!atBlank (some ch) && !isIndicator ch)
    || (!atBlank (s.cursor.peek 1) && (ch = '-' || (!s.inFlow && (ch = '?' || ch = ':'))))

/-- The token that begins here with `ch`. -/
def takeToken (s : Layout) (ch : Char) : Except Fault Layout :=
  let atLineStart := s.cursor.column = 0
  let blankNext := atBlank (s.cursor.peek 1)
  if ch = '%' && atLineStart then s.takeDirective
  else if ch = '-' && atLineStart && s.cursor.seesSeparator then s.takeSeparator .documentStart
  else if ch = '.' && atLineStart && s.cursor.seesSeparator then s.takeSeparator .documentEnd
  else if ch = '[' then s.openFlow .flowSequence
  else if ch = '\x7b' then s.openFlow .flowMapping
  else if ch = ']' then s.closeFlow .flowSequenceEnd
  else if ch = '\x7d' then s.closeFlow .flowMappingEnd
  else if ch = ',' then s.takeFlowEntry
  else if ch = '-' && blankNext then s.takeBlockEntry
  else if ch = '?' && (s.inFlow || blankNext) then s.takeKey
  else if ch = ':' && (s.inFlow || blankNext) then s.takeValue
  else if ch = '*' then s.takeWord readAnchor .alias
  else if ch = '&' then s.takeWord readAnchor .anchor
  else if ch = '!' then s.takeWord readTag .tag
  else if ch = '|' && !s.inFlow then s.takeBlockScalar false
  else if ch = '>' && !s.inFlow then s.takeBlockScalar true
  else if ch = '\x27' || ch = '"' then s.takeQuoted ch
  else if s.beginsPlain ch then s.takePlain
  else .error .malformed

/-- The next token of the text, with those that the layout puts before it. -/
def step (s : Layout) : Except Fault Layout := do
  let s ← (s.toNextToken (s.cursor.rest.length + 1)).dropStale
  let s := s.unwind s.column
  match s.cursor.peek 0 with
  | none => s.finish
  | some ch => do (← s.takeToken ch).dropStale

/-- How many tokens are settled: those before the first that may still turn out to begin a key. -/
def settled (s : Layout) : Nat := s.pending.foldl (fun n p => min n p.2.number) s.tokens.size

end Layout

/-- The tokens of a text, as far as they can be told before the first fault. -/
structure TokenStream where
  tokens : List Token
  fault : Option Fault
  deriving DecidableEq, Repr

/-- The tokens of the rest of the text. Each takes at least one character. -/
def Layout.run : (fuel : Nat) → Layout → TokenStream
  | 0, s => ⟨s.tokens.toList.take s.settled, some .malformed⟩
  | fuel + 1, s =>
    match s.step with
    | .error e => ⟨s.tokens.toList.take s.settled, some e⟩
    | .ok s => if s.ended then ⟨s.tokens.toList, none⟩ else run fuel s

/-- Characters that a text may hold. -/
def isAllowed (c : Char) : Bool :=
  let n := c.toNat
  n = 9 || n = 10 || n = 13 || (0x20 ≤ n && n ≤ 0x7E) || n = 0x85 || (0xA0 ≤ n && n ≤ 0xFFFD)
    || 0x10000 ≤ n

/-- The tokens of a text. A byte order mark at its beginning is skipped. -/
def TokenStream.ofText (cs : List Char) : TokenStream :=
  if cs.all isAllowed then
    let start := Cursor.ofText cs
    let start := if start.sees '\ufeff' then start.advance else start
    Layout.run (cs.length + 1) { cursor := start }
  else ⟨[], some .malformed⟩

end Stubsmith.Yaml
