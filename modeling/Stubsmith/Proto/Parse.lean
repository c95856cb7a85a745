import Stubsmith.Proto.Lexeme
import Stubsmith.Proto.Tree

/-!
# Parsing

The reader keeps a stack of frames, one for each node that is still open. Before each lexeme the top
frame offers terminals: those that can continue its node and, once the node may end, those that can
follow its rule anywhere in a file. A token is then shifted: nodes that may end and cannot take it are
closed, nodes that begin with it are opened. A token that was offered but fits nowhere is an error.
-/
namespace Stubsmith.Proto

/-- Why a text is no proto file. -/
inductive SyntaxFault
  | unexpectedToken (text : List Char)
  | unexpectedChar (c : Char)
  | unexpectedEnd
  deriving DecidableEq, Repr

/-- A fault and its place. -/
structure SyntaxError where
  fault : SyntaxFault
  line : Nat
  column : Nat
  deriving DecidableEq, Repr

/-- An open node: its rule, what may still come, and the children read so far, last first. -/
structure Frame where
  rule : Rule
  rest : Shape
  children : List Tree
  deriving Repr

namespace Frame

/-- A node with no children yet. -/
def opening (r : Rule) : Frame := ⟨r, r.shape, []⟩

/-- The node with one more child. -/
def push (f : Frame) (t : Tree) : Frame :=
  { f with rest := f.rest.after t.piece, children := t :: f.children }

/-- The node as it stands. -/
def tree (f : Frame) : Tree := .node f.rule f.children.reverse

/-- The terminals that can stand behind the node. The later components of a dotted name read alike in
every rule, so behind them stands whatever can follow any dotted name. -/
def follows (f : Frame) : List Terminal :=
  if f.rest = Shape.dottedTail then Rule.dottedName.follows ++ Rule.messageType.follows
  else f.rule.follows

/-- The terminals that are offered next. -/
def offer (f : Frame) : Offer := fun t =>
  (f.rest.choose t).isSome || (f.rest.nullable && f.follows.contains t)

/-- The frames that lead from `f` down to a node that takes the token, innermost first. At most
`depth` nodes are opened. -/
def enter? (t : Token) : Nat → Frame → Option (List Frame)
  | depth, f =>
    match f.rest.choose t.kind, depth with
    | some (.token _), _ => some [f.push (.leaf t)]
    | some (.rule r), d + 1 => (enter? t d (opening r)).map (· ++ [f])
    | _, _ => none

/-- How many nodes can begin with one token. -/
def maxDepth : Nat := 2

end Frame

/-- The open nodes: the innermost and those around it. -/
structure Stack where
  top : Frame
  below : List Frame
  deriving Repr

namespace Stack

/-- Takes a token into the innermost node that can hold it, closing the nodes inside that one. -/
def shiftInto (t : Token) : Frame → List Frame → Option Stack
  | f, below =>
    match f.enter? t Frame.maxDepth with
    | some (g :: gs) => some ⟨g, gs ++ below⟩
    | _ =>
      if f.rest.nullable then
        match below with
        | [] => none
        | p :: ps => shiftInto t (p.push f.tree) ps
      else none

def shift? (s : Stack) (t : Token) : Option Stack := shiftInto t s.top s.below

/-- Closes all nodes. -/
def closeInto : Frame → List Frame → Option Tree
  | f, [] => if f.rest.nullable then some f.tree else none
  | f, p :: ps => if f.rest.nullable then closeInto (p.push f.tree) ps else none

def close? (s : Stack) : Option Tree := closeInto s.top s.below

end Stack

/-- The state between two lexemes. -/
structure Reader where
  position : Position
  stack : Stack
  /-- The place of the last token, the start of the text before the first. -/
  lastToken : Position
  /-- The comments so far, last first. -/
  comments : List Comment
  deriving Repr

namespace Reader

def start : Reader := ⟨.start, ⟨.opening .file, []⟩, .start, []⟩

def fail (r : Reader) (f : SyntaxFault) : SyntaxError := ⟨f, r.position.line, r.position.column⟩

/-- Takes one lexeme. -/
def accept (r : Reader) (l : Lexeme) : Except SyntaxError Reader :=
  let next := r.position.after l.text
  match l with
  | .space _ => .ok { r with position := next }
  | .comment text => .ok { r with position := next, comments := ⟨text, r.position⟩ :: r.comments }
  | .token kind text =>
    match r.stack.shift? ⟨kind, text, r.position⟩ with
    | some stack => .ok { r with position := next, stack, lastToken := r.position }
    | none => .error (r.fail (.unexpectedToken text))

/-- The fault of a text at whose front no offered lexeme stands: the token that stands there if every
terminal were offered, else its first character. -/
def refuse (r : Reader) (c : Char) (cs : List Char) : SyntaxError :=
  match Offer.everything.lexeme? (c :: cs) with
  | some l => r.fail (.unexpectedToken l.text)
  | none => r.fail (.unexpectedChar c)

/-- Reads a text from which the first `skip` characters are already taken. -/
def run : Reader → Nat → List Char → Except SyntaxError Reader
  | r, _, [] => .ok r
  | r, skip + 1, _ :: cs => run r skip cs
  | r, 0, c :: cs =>
    match r.stack.top.offer.lexeme? (c :: cs) with
    | none => .error (r.refuse c cs)
    | some l =>
      match r.accept l with
      | .error e => .error e
      | .ok next => run next (l.text.length - 1) cs

/-- The tree at the end of the text. -/
def finish (r : Reader) : Except SyntaxError Tree :=
  match r.stack.close? with
  | some t => .ok t
  | none => .error ⟨.unexpectedEnd, r.lastToken.line, r.lastToken.column⟩

end Reader

/-- The parse tree of a text and its comments in order. -/
def read (cs : List Char) : Except SyntaxError (Tree × List Comment) := do
  let r ← Reader.start.run 0 cs
  let t ← r.finish
  return (t, r.comments.reverse)

/-- The syntax tree of a text. -/
def parse (text : String) : Except SyntaxError Node := do
  let (t, comments) ← read text.toList
  return t.toNode comments

end Stubsmith.Proto
