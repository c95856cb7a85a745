import Stubsmith.Logging.Record
import Stubsmith.Proto.Node
import Stubsmith.Service.Check
import Stubsmith.Service.Comment

/-!
# The services of a syntax tree

A service is found by its place in the tree and its members by their index among its children. Nothing
is assumed of the tree: a member that does not have the form of a plain method is left out with a
warning, so is a service without a name, and every other tree yields no services at all. What is found is
checked as it is described, and the first description that does not pass ends the extraction.
-/
namespace Stubsmith.Service

open Proto (Node)
open Text (CodePoint)

/-- A line number in a message. -/
def lineText : Option Int → String
  | some n => Text.signedDecimal n
  | none => "None"

/-- The places of name, request and response among the children of a method, with their kinds. -/
def methodSlots : List (Nat × String) := [(1, "rpc_name"), (3, "message_type"), (7, "message_type")]

def methodKind : String := "rpc"

/-- Why an element is no plain method. -/
inductive Flaw
  | missing (slot : Nat)
  | unexpected (slot : Nat) (kind : String) (found : List CodePoint)
  | unnamed
  deriving DecidableEq, Repr

def Flaw.message : Flaw → String
  | missing i => "missing child at position " ++ Text.decimal i
  | unexpected i kind found =>
    "expected " ++ kind ++ " at position " ++ Text.decimal i ++ ", found " ++ Text.quotedPoints found
  | unnamed => "empty method name"

/-- The text of a child, empty if there is none. -/
def slotText (n : Node) (i : Nat) : List CodePoint := (n.children[i]?.map Node.text).getD []

/-- What is wrong with one slot of an element. An element without a kind only needs the child. -/
def slotFlaw (element : Node) (slot : Nat × String) : Option Flaw :=
  match element.children[slot.1]? with
  | none => some (.missing slot.1)
  | some c =>
    if element.kind != [] && c.kind != slot.2 then
      some (.unexpected slot.1 slot.2 (if c.kind != [] then c.kind else c.text))
    else none

/-- The first flaw in the slots of an element. -/
def slotsFlaw (element : Node) : Option Flaw := methodSlots.findSome? (slotFlaw element)

/-- The method that an element declares, under the comments before it. -/
def readMethod (element : Node) (comments : List (List CodePoint)) : Except Flaw (Checked Method) :=
  match slotsFlaw element with
  | some flaw => .error flaw
  | none =>
    let name := slotText element 1
    if name = [] then .error .unnamed
    else .ok (describeMethod name (slotText element 3) (slotText element 7) (comments.filter (· != [])))

/-- The methods among the elements of a service. Comments wait for the next method; an element that is
no method discards those that wait. -/
def readElements (service : List CodePoint) :
    List (List CodePoint) → List Node → Checked (List Method) × List LogRecord
  | _, [] => (.ok [], [])
  | waiting, e :: es =>
    if !e.hasChildren then
      readElements service
        (if e.isComment then waiting ++ [commentText e.value] else waiting) es
    else if e.kind != [] && e.kind != methodKind then
      let (methods, log) := readElements service [] es
      (methods, ⟨.debug, .extraction, "Ignoring " ++ e.kind ++ " in service " ++ service⟩ :: log)
    else
      match readMethod e waiting with
      | .ok (.ok m) =>
        let (methods, log) := readElements service [] es
        (methods.map (m :: ·), log)
      | .ok (.error issues) => (.error issues, [])
      | .error flaw =>
        let (methods, log) := readElements service [] es
        (methods, ⟨.warning, .extraction, "Skipping element of service " ++ service ++ " (line "
          ++ lineText e.line ++ "): " ++ flaw.message⟩ :: log)

/-- How many children of a service stand before its elements: keyword, name and brace. -/
def headLength : Nat := 3

/-- The service that a node declares, if it declares one. -/
def readEntity (entity : Node) : Checked (Option Service) × List LogRecord :=
  if slotText entity 0 != "service" then (.ok none, [])
  else
    let name := slotText entity 1
    if name = [] then
      (.ok none, [⟨.warning, .extraction,
        "Skipping service without a name (line " ++ lineText entity.line ++ ")"⟩])
    else
      let (methods, log) := readElements name [] (entity.children.drop headLength)
      (methods >>= fun ms => (describeService name ms).map some, log)

/-- The service in a child of the root: its first child, if that has children. -/
def readStatement (statement : Node) : Checked (Option Service) × List LogRecord :=
  match statement.children with
  | entity :: _ => if entity.hasChildren then readEntity entity else (.ok none, [])
  | [] => (.ok none, [])

/-- What was found, in order, up to the first that does not pass its check. -/
def inOrder : List (Checked (Option Service) × List LogRecord) → Checked (List Service) × List LogRecord
  | [] => (.ok [], [])
  | (.error issues, log) :: _ => (.error issues, log)
  | (.ok found, log) :: others =>
    let (services, more) := inOrder others
    (services.map (found.toList ++ ·), log ++ more)

/-- The services of a tree in order, and what was left out on the way. -/
def extract (tree : Node) : Checked (List Service) × List LogRecord :=
  inOrder (tree.children.map readStatement)

end Stubsmith.Service
