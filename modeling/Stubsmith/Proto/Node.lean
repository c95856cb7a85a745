import Stubsmith.Text.CodePoint

/-!
# Syntax trees

A node has a kind, a text of its own if it is a leaf, the line of its first token and its children.
The tree keeps every token, so a reader may address children by their index. Kinds and texts are made of
code points: a tree need not come from a file.
-/
namespace Stubsmith.Proto

open Text (CodePoint)

inductive Node
  | mk (kind value : List CodePoint) (line : Option Int) (children : List Node)
  deriving Repr

namespace Node

def kind : Node → List CodePoint
  | mk k _ _ _ => k

def value : Node → List CodePoint
  | mk _ v _ _ => v

def line : Node → Option Int
  | mk _ _ l _ => l

def children : Node → List Node
  | mk _ _ _ cs => cs

def hasChildren (n : Node) : Bool := !n.children.isEmpty

/-- The kind of the leaves that hold a comment. -/
def commentKind : String := "COMMENT"

/-- The text of a leaf looks like a comment once the blanks around it are gone. -/
def looksLikeComment (text : List CodePoint) : Bool :=
  let t := Text.trim text
  ((Text.points ['/', '*']).isPrefixOf t && (Text.points ['*', '/']).isSuffixOf t)
    || (Text.points ['/', '/']).isPrefixOf t

/-- The node is a comment, by its kind or, for a leaf, by its text. -/
def isComment (n : Node) : Bool :=
  n.kind == commentKind || (!n.hasChildren && looksLikeComment n.value)

mutual

/-- The tokens below a node without blanks between them; comments count as nothing. -/
def text : Node → List CodePoint
  | mk k v l [] => if (mk k v l []).isComment then [] else v
  | mk _ _ _ (c :: cs) => c.text ++ textAll cs

/-- The texts of several nodes one after the other. -/
def textAll : List Node → List CodePoint
  | [] => []
  | n :: ns => n.text ++ textAll ns

end

/-- The child at an index counted from zero; there is none outside the list. -/
def child? (n : Node) (i : Int) : Option Node :=
  if i < 0 then none else n.children[i.toNat]?

end Node

end Stubsmith.Proto
