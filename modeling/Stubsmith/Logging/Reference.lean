import Stubsmith.Logging.Setup
import Stubsmith.Text.Digit

/-!
# References for names

The name of a log file may be a reference instead: a scheme, a colon, two slashes and the way to
something that has a name. One scheme leads to a part of the setup itself, by names behind dots and by
names or numbers in brackets. The other leads out of the setup, to nothing that is the name of a file.

While the log file is being opened, the formats and the console are set up already and have no parts
any more, and of the log file only the encoding of its text is left to be asked for.
-/
namespace Stubsmith.Logging

/-- What the name of a log file can be. -/
inductive FileName
  | plain (name : String)
  | inSetup (way : List Char)
  | outside
  deriving DecidableEq, Repr

/-- A text on one line; a line feed at its end does not count. -/
def oneLine? (cs : List Char) : Option (List Char) :=
  let head := cs.takeWhile (· != '\n')
  if cs.length ≤ head.length + 1 then some head else none

/-- The way behind a scheme. -/
def behind? (scheme : String) (cs : List Char) : Option (List Char) :=
  let lead := scheme.toList ++ [':', '/', '/']
  if lead.isPrefixOf cs then oneLine? (cs.drop lead.length) else none

def FileName.of (name : String) : FileName :=
  match behind? "cfg" name.toList, behind? "ext" name.toList with
  | some way, _ => .inSetup way
  | none, some _ => .outside
  | none, none => .plain name

/-- A character of a name in a reference. -/
def isWordChar (c : Char) : Bool := c.isAlphanum || c = '_' || (Text.digit? c).isSome

/-- The word at the head of a text, with blanks around it, and what follows. -/
def word? (cs : List Char) : Option (List Char × List Char) :=
  let cs := Text.trimLeft cs
  let word := cs.takeWhile isWordChar
  if word.isEmpty then none else some (word, Text.trimLeft (cs.drop word.length))

/-- One step of a reference. -/
inductive ReferenceStep
  | name (word : List Char)
  | bracket (word : List Char)
  deriving DecidableEq, Repr

/-- The step at the head of a text, and what follows. -/
def step? : List Char → Option (ReferenceStep × List Char)
  | '.' :: cs => (word? cs).map fun (word, rest) => (.name word, rest)
  | '[' :: cs =>
    match word? cs with
    | some (word, ']' :: rest) => some (.bracket word, Text.trimLeft rest)
    | _ => none
  | _ => none

/-- The steps of a text to its end; each takes at least one character. -/
def steps? : (length : Nat) → List Char → Option (List ReferenceStep)
  | _, [] => some []
  | 0, _ :: _ => none
  | length + 1, c :: cs =>
    match step? (c :: cs) with
    | some (step, rest) => (steps? length rest).map (step :: ·)
    | none => none

/-- A whole reference; its first word has no dot. -/
def reference? (cs : List Char) : Option (List ReferenceStep) :=
  (word? cs).bind fun (word, rest) => (steps? rest.length rest).map (.name word :: ·)

/-- The number that a word of digits stands for. -/
def number? (word : List Char) : Option Nat :=
  (word.mapM Text.digit?).map fun digits => digits.foldl (fun n d => 10 * n + d) 0

/-- The part of a value that one step leads to. A number in brackets counts the items of a list or the
code points of a text. -/
def part? : Value → ReferenceStep → Option Value
  | .mapping es, .name word => es.lookup (String.ofList word)
  | .mapping es, .bracket word =>
    if (number? word).isSome then none else es.lookup (String.ofList word)
  | .list vs, .bracket word => (number? word).bind (vs[·]?)
  | .text ps, .bracket word => ((number? word).bind (ps[·]?)).map fun p => .text [p]
  | _, _ => none

/-- The parts of a setup that can be asked for while its log file is being opened. -/
def askable : Value :=
  .mapping [("handlers", .mapping [("file", .mapping [("encoding", .text "utf-8")])]),
    ("root", .mapping [("handlers", .list [.text "console", .text "file"])])]

/-- The name of the file that a given name stands for. -/
def resolve? (name : String) : Option String :=
  match FileName.of name with
  | .plain name => some name
  | .outside => none
  | .inSetup way =>
    match (reference? way).bind fun steps => steps.foldlM part? askable with
    | some (.text found) => Text.plain? found
    | _ => none

end Stubsmith.Logging
