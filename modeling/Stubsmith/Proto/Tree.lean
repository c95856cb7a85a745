import Stubsmith.Proto.Grammar
import Stubsmith.Proto.Node

/-!
# Parse trees and the comments woven into them

A parse tree records the rule of every inner node and the token of every leaf, with positions. Turning
it into a syntax tree keeps its structure and adds to each service the comments that stand in its body
on lines of their own.
-/
namespace Stubsmith.Proto

inductive Tree
  | leaf (t : Token)
  | node (r : Rule) (children : List Tree)
  deriving Repr

namespace Tree

def piece : Tree → Piece
  | leaf t => .token t.kind
  | node r _ => .rule r

mutual

/-- The tokens of a tree from left to right. -/
def tokens : Tree → List Token
  | leaf t => [t]
  | node _ cs => tokensAll cs

def tokensAll : List Tree → List Token
  | [] => []
  | t :: ts => t.tokens ++ tokensAll ts

end

mutual

/-- The tree is a derivation: the children of every node fit the shape of its rule, and a leaf of a
terminal with one spelling has that spelling. -/
inductive Derives : Tree → Prop
  | leaf (t : Token) : (∀ s, t.kind.spelling? = some s → t.text = s) → Derives (.leaf t)
  | node (r : Rule) (cs : List Tree) :
      r.shape.Matches (cs.map piece) → DerivesAll cs → Derives (.node r cs)

inductive DerivesAll : List Tree → Prop
  | nil : DerivesAll []
  | cons (t : Tree) (ts : List Tree) : Derives t → DerivesAll ts → DerivesAll (t :: ts)

end

/-- The offset of the first token. -/
def start (t : Tree) : Nat := (t.tokens.head?.map (·.position.offset)).getD 0

/-- The offset behind the last token. -/
def stop (t : Tree) : Nat := (t.tokens.getLast?.map (·.stop)).getD 0

/-- The line of the first token. -/
def line (t : Tree) : Option Nat := t.tokens.head?.map (·.position.line)

/-- The line of the last token. No token goes over a line end, so the tree ends on this line. -/
def lastLine (t : Tree) : Option Nat := t.tokens.getLast?.map (·.position.line)

end Tree

namespace Comment

def node (c : Comment) : Node :=
  .mk Node.commentKind (Text.points c.text) (some c.position.line) []

/-- The comment does not begin inside any of the elements, and begins on another line than the one on
which the last element before it ends. -/
def standsAlone (c : Comment) (elements : List Tree) : Bool :=
  let at_ := c.position.offset
  !(elements.any fun e => e.start ≤ at_ && at_ < e.stop)
    && match (elements.filter fun e => e.stop ≤ at_).getLast? with
      | none => true
      | some e => e.lastLine != some c.position.line

end Comment

/-- The opening brace of a service and the elements of its body. -/
def bodyElements (service : List Tree) : List Tree := (service.drop 2).dropLast

/-- The comments that belong to the body of a service. -/
def bodyComments (service : List Tree) (comments : List Comment) : List Comment :=
  match service[2]?, service.getLast? with
  | some opening, some closing =>
    comments.filter fun c =>
      opening.stop ≤ c.position.offset && c.position.offset < closing.start
        && c.standsAlone (bodyElements service)
  | _, _ => []

/-- Puts each comment, in the given form, before the first element that begins behind it. -/
def weave {α : Type} (form : Comment → α) : List (Nat × α) → List Comment → List α
  | [], comments => comments.map form
  | (at_, a) :: as, comments =>
    (comments.takeWhile (·.position.offset < at_)).map form
      ++ a :: weave form as (comments.dropWhile (·.position.offset < at_))

namespace Tree

mutual

/-- The syntax tree, with the comments of each service among the children of the service. -/
def toNode (comments : List Comment) : Tree → Node
  | leaf t => .mk t.kind.name (Text.points t.text) (some t.position.line) []
  | node r cs =>
    let nodes := toNodes comments cs
    let children :=
      if r = .serviceDef then
        weave Comment.node ((cs.map start).zip nodes) (bodyComments cs comments)
      else nodes
    .mk r.name [] ((node r cs).line.map Int.ofNat) children

def toNodes (comments : List Comment) : List Tree → List Node
  | [] => []
  | t :: ts => t.toNode comments :: toNodes comments ts

end

end Tree

end Stubsmith.Proto
