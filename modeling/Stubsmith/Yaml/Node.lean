import Stubsmith.Yaml.Tag
import Stubsmith.Yaml.Token

/-!
# Nodes

A document is a graph: an alias stands for the node that its anchor names, which may be a node around
it. Nodes are numbered in the order in which they begin, and collections hold the numbers of their
parts.
-/
namespace Stubsmith.Yaml

open Text (CodePoint)

inductive Content
  | scalar (text : List CodePoint)
  | sequence (items : List Nat)
  | mapping (entries : List (Nat × Nat))
  deriving DecidableEq, Repr

structure Node where
  tag : Tag
  content : Content
  deriving DecidableEq, Repr

/-- A reader of tokens: those still to be read, the nodes so far and the names in force. -/
structure NodeReader where
  tokens : List Token
  /-- What comes after the tokens, if the text could not be read to its end. -/
  fault : Option Fault
  nodes : Array Node := #[]
  anchors : List (String × Nat) := []
  handles : List (String × String) := []

namespace NodeReader

/-- The handles that every document knows. -/
def commonHandles : List (String × String) := [("!", "!"), ("!!", Tag.family)]

/-- The next token; where the tokens give out, the fault that comes after them. -/
def next (s : NodeReader) : Except Fault Token :=
  match s.tokens with
  | t :: _ => .ok t
  | [] => .error (s.fault.getD .malformed)

def drop (s : NodeReader) : NodeReader := { s with tokens := s.tokens.tail }

/-- What stands before the content of a node. -/
structure Properties where
  anchor : Option String := none
  tag : Option TagText := none

/-- An anchor and a tag, in either order, each at most once. -/
def readProperties (s : NodeReader) : Except Fault (Properties × NodeReader) := do
  match ← s.next with
  | .anchor a =>
    match ← s.drop.next with
    | .tag t => return (⟨some a, some t⟩, s.drop.drop)
    | _ => return (⟨some a, none⟩, s.drop)
  | .tag t =>
    match ← s.drop.next with
    | .anchor a => return (⟨some a, some t⟩, s.drop.drop)
    | _ => return (⟨none, some t⟩, s.drop)
  | _ => return ({}, s)

/-- The tag that is meant; none for a node that is to be typed as if it had no tag. -/
def expand (s : NodeReader) : Option TagText → Except Fault (Option String)
  | none => .ok none
  | some ⟨none, suffix⟩ => .ok (if suffix = "!" then none else some suffix)
  | some ⟨some handle, suffix⟩ =>
    match s.handles.lookup handle with
    | some uri => .ok (if uri ++ suffix = "!" then none else some (uri ++ suffix))
    | none => .error .malformed

/-- Adds a node, under its anchor if it has one. -/
def add (s : NodeReader) (anchor : Option String) (n : Node) : Except Fault (Nat × NodeReader) :=
  let number := s.nodes.size
  let s := { s with nodes := s.nodes.push n }
  match anchor with
  | none => .ok (number, s)
  | some a =>
    if (s.anchors.lookup a).isSome then .error .malformed
    else .ok (number, { s with anchors := (a, number) :: s.anchors })

/-- Sets the content of a node once its parts are known. -/
def fill (s : NodeReader) (number : Nat) (content : Content) : NodeReader :=
  { s with nodes := s.nodes.modify number fun n => { n with content } }

/-- A scalar without text, where a node is left out. -/
def addEmpty (s : NodeReader) : Except Fault (Nat × NodeReader) := s.add none ⟨.null, .scalar []⟩

/-- The places where a node can stand: they differ in the tokens that begin or replace it. -/
inductive Place
  | block
  | blockOrEntries
  | flow
  deriving DecidableEq

/-- No node stands before one of these tokens within a block mapping. -/
def endsBlockPart : Token → Bool
  | .key => true
  | .value => true
  | .blockEnd => true
  | _ => false

/-- No node stands before one of these tokens within entries that have no indentation of their own. -/
def endsEntry : Token → Bool
  | .blockEntry => true
  | t => endsBlockPart t

/-- No node stands before one of these tokens within a flow collection. -/
def endsFlowPart (close t : Token) : Bool := t = .flowEntry || t = close

mutual

/-- A node. -/
def readNode : (fuel : Nat) → Place → NodeReader → Except Fault (Nat × NodeReader)
  | 0, _, _ => .error .malformed
  | fuel + 1, place, s => do
    match ← s.next with
    | .alias name =>
      match s.anchors.lookup name with
      | some number => return (number, s.drop)
      | none => .error .malformed
    | _ =>
      let (properties, s) ← s.readProperties
      let tag ← s.expand properties.tag
      let anchor := properties.anchor
      let sequenceTag := (tag.map Tag.ofUri).getD .sequence
      let mappingTag := (tag.map Tag.ofUri).getD .mapping
      match ← s.next, place with
      | .blockEntry, .blockOrEntries =>
        let (number, s) ← s.add anchor ⟨sequenceTag, .sequence []⟩
        let (items, s) ← readEntries fuel s
        return (number, s.fill number (.sequence items))
      | .scalar text plain, _ =>
        let asPlain := plain && properties.tag.isNone || tag.isNone && properties.tag.isSome
        let untagged := if asPlain then Tag.ofPlain (Text.chars text) else .text
        s.drop.add anchor ⟨(tag.map Tag.ofUri).getD untagged, .scalar text⟩
      | .flowSequence, _ =>
        let (number, s) ← s.drop.add anchor ⟨sequenceTag, .sequence []⟩
        let (items, s) ← readFlowItems fuel true s
        return (number, s.fill number (.sequence items))
      | .flowMapping, _ =>
        let (number, s) ← s.drop.add anchor ⟨mappingTag, .mapping []⟩
        let (entries, s) ← readFlowEntries fuel true s
        return (number, s.fill number (.mapping entries))
      | t, place =>
        if t = .blockSequence && place != .flow then do
          let (number, s) ← s.drop.add anchor ⟨sequenceTag, .sequence []⟩
          let (items, s) ← readItems fuel s
          return (number, s.fill number (.sequence items))
        else if t = .blockMapping && place != .flow then do
          let (number, s) ← s.drop.add anchor ⟨mappingTag, .mapping []⟩
          let (entries, s) ← readBlockEntries fuel s
          return (number, s.fill number (.mapping entries))
        else if properties.anchor.isSome || properties.tag.isSome then
          s.add anchor ⟨(tag.map Tag.ofUri).getD .null, .scalar []⟩
        else .error .malformed

/-- The items of a block sequence, through its end. -/
def readItems : (fuel : Nat) → NodeReader → Except Fault (List Nat × NodeReader)
  | 0, _ => .error .malformed
  | fuel + 1, s => do
    match ← s.next with
    | .blockEnd => return ([], s.drop)
    | .blockEntry =>
      let s := s.drop
      let t ← s.next
      let (item, s) ← if t = .blockEntry || t = .blockEnd then s.addEmpty else readNode fuel .block s
      let (items, s) ← readItems fuel s
      return (item :: items, s)
    | _ => .error .malformed

/-- The items of a sequence without indentation of its own. -/
def readEntries : (fuel : Nat) → NodeReader → Except Fault (List Nat × NodeReader)
  | 0, _ => .error .malformed
  | fuel + 1, s => do
    match ← s.next with
    | .blockEntry =>
      let s := s.drop
      let (item, s) ← if endsEntry (← s.next) then s.addEmpty else readNode fuel .block s
      let (items, s) ← readEntries fuel s
      return (item :: items, s)
    | _ => return ([], s)

/-- The entries of a block mapping, through its end. A key may lack its value. -/
def readBlockEntries : (fuel : Nat) → NodeReader → Except Fault (List (Nat × Nat) × NodeReader)
  | 0, _ => .error .malformed
  | fuel + 1, s => do
    match ← s.next with
    | .blockEnd => return ([], s.drop)
    | .key =>
      let s := s.drop
      let (key, s) ←
        if endsBlockPart (← s.next) then s.addEmpty else readNode fuel .blockOrEntries s
      let (value, s) ←
        if (← s.next) = .value then do
          let s := s.drop
          if endsBlockPart (← s.next) then s.addEmpty else readNode fuel .blockOrEntries s
        else s.addEmpty
      let (entries, s) ← readBlockEntries fuel s
      return ((key, value) :: entries, s)
    | _ => .error .malformed

/-- A key of a flow collection and its value, after the token that begins the key. -/
def readFlowPair : (fuel : Nat) → (close : Token) → NodeReader →
    Except Fault ((Nat × Nat) × NodeReader)
  | 0, _, _ => .error .malformed
  | fuel + 1, close, s => do
    let t ← s.next
    let (key, s) ←
      if t = .value || endsFlowPart close t then s.addEmpty else readNode fuel .flow s
    let (value, s) ←
      if (← s.next) = .value then do
        let s := s.drop
        if endsFlowPart close (← s.next) then s.addEmpty else readNode fuel .flow s
      else s.addEmpty
    return ((key, value), s)

/-- The items of a flow sequence, through its end. A key with a value is a mapping of its own. -/
def readFlowItems : (fuel : Nat) → (first : Bool) → NodeReader → Except Fault (List Nat × NodeReader)
  | 0, _, _ => .error .malformed
  | fuel + 1, first, s => do
    let t ← s.next
    if t = .flowSequenceEnd then return ([], s.drop)
    else if !first && t != .flowEntry then .error .malformed
    else
      let s := if first then s else s.drop
      match ← s.next with
      | .flowSequenceEnd => return ([], s.drop)
      | .key =>
        let (number, s) ← s.drop.add none ⟨.mapping, .mapping []⟩
        let (entry, s) ← readFlowPair fuel .flowSequenceEnd s
        let s := s.fill number (.mapping [entry])
        let (items, s) ← readFlowItems fuel false s
        return (number :: items, s)
      | _ =>
        let (item, s) ← readNode fuel .flow s
        let (items, s) ← readFlowItems fuel false s
        return (item :: items, s)

/-- The entries of a flow mapping, through its end. A node by itself is a key without a value. -/
def readFlowEntries : (fuel : Nat) → (first : Bool) → NodeReader →
    Except Fault (List (Nat × Nat) × NodeReader)
  | 0, _, _ => .error .malformed
  | fuel + 1, first, s => do
    let t ← s.next
    if t = .flowMappingEnd then return ([], s.drop)
    else if !first && t != .flowEntry then .error .malformed
    else
      let s := if first then s else s.drop
      match ← s.next with
      | .flowMappingEnd => return ([], s.drop)
      | .key =>
        let (entry, s) ← readFlowPair fuel .flowMappingEnd s.drop
        let (entries, s) ← readFlowEntries fuel false s
        return (entry :: entries, s)
      | _ =>
        let (key, s) ← readNode fuel .flow s
        let (value, s) ← s.addEmpty
        let (entries, s) ← readFlowEntries fuel false s
        return ((key, value) :: entries, s)

end

/-- The directives before a document: at most one version, of the first series, and each handle at
most once. -/
def readDirectives : (version : Bool) → (handles : List (String × String)) → List Token →
    Except Fault (List (String × String) × List Token)
  | version, handles, .directive d :: rest =>
    match d with
    | .version major =>
      if version || major != 1 then .error .malformed else readDirectives true handles rest
    | .tag handle uri =>
      if (handles.lookup handle).isSome then .error .malformed
      else readDirectives version ((handle, uri) :: handles) rest
    | .other => readDirectives version handles rest
  | _, handles, rest => .ok (handles, rest)

/-- Past the directives before a document, whose handles come into force, and the mark of its
beginning. -/
def beginDocument (s : NodeReader) : Except Fault NodeReader := do
  let (handles, tokens) ← readDirectives false [] s.tokens
  let s := { s with tokens, handles := handles ++ commonHandles }
  if (← s.next) = .documentStart then return s.drop else .error .malformed

/-- Past the marks that end a document. -/
def skipDocumentEnds : List Token → List Token
  | .documentEnd :: rest => skipDocumentEnds rest
  | rest => rest

/-- No content stands before one of these tokens in a document. -/
def endsDocument : Token → Bool
  | .directive _ => true
  | .documentStart => true
  | .documentEnd => true
  | .streamEnd => true
  | _ => false

/-- Nothing but marks of the end may come after a document; a second document is read as far as its
beginning before it is refused. -/
def finish (s : NodeReader) : Except Fault Unit := do
  let s := { s with tokens := skipDocumentEnds s.tokens }
  if (← s.next) = .streamEnd then return ()
  else do
    let _ ← s.beginDocument
    .error .malformed

/-- The node of a document and the end after it. -/
def readDocument (s : NodeReader) (isEmpty : Bool) : Except Fault (Nat × NodeReader) := do
  let (root, s) ← if isEmpty then s.addEmpty else readNode (4 * s.tokens.length + 4) .block s
  s.finish
  return (root, s)

end NodeReader

/-- A document: its nodes and the number of its root. -/
structure Graph where
  nodes : Array Node
  root : Nat

/-- The only document among the tokens, if there is one. It may begin without a mark. -/
def Graph.ofTokens (stream : TokenStream) : Except Fault (Option Graph) := do
  let s : NodeReader := ⟨stream.tokens, stream.fault, #[], [], NodeReader.commonHandles⟩
  let (root, s) ←
    match ← s.next with
    | .streamEnd => return none
    | .directive _ | .documentStart =>
      let s ← s.beginDocument
      s.readDocument (NodeReader.endsDocument (← s.next))
    | _ => s.readDocument false
  return some ⟨s.nodes, root⟩

end Stubsmith.Yaml
