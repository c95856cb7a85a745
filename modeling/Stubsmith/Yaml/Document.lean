import Stubsmith.Yaml.Node
import Stubsmith.Yaml.Scalar

/-!
# Documents

The data of a document, one datum for each node that can be reached from the root. Nodes are taken up
level by level: the parts of a collection are typed before anything inside them, so the first fault in
that order is the one reported. Keys are scalars; of equal keys the first gives the place and the last
gives the value. When a mapping is taken up, the entries of the mappings merged into it are put before
its own, for good: whatever leads to the mapping later finds them there.
-/
namespace Stubsmith.Yaml

open Text (CodePoint)

inductive Datum
  | scalar (s : Scalar)
  | list
  | set
  | mapping (entries : List (Scalar × Nat))

def Datum.typeName : Datum → String
  | scalar s => s.typeName
  | list => "list"
  | set => "set"
  | mapping _ => "dict"

/-- The data of a document by the numbers of its nodes. -/
structure Document where
  data : Array (Option Datum)
  root : Nat

/-- The datum of a node. -/
def Document.get (d : Document) (n : Nat) : Datum := ((d.data[n]?).join).getD (.scalar .null)

/-- Sets the value of a key, in its place if it has one. -/
def insertKey {α : Type} (k : Scalar) (v : α) : List (Scalar × α) → List (Scalar × α)
  | [] => [(k, v)]
  | (k', v') :: es => if k.sameKey k' then (k', v) :: es else (k', v') :: insertKey k v es

namespace Graph

def node? (g : Graph) (n : Nat) : Option Node := g.nodes[n]?

def content? (g : Graph) (n : Nat) : Option Content := (g.node? n).map (·.content)

def tag (g : Graph) (n : Nat) : Tag := ((g.node? n).map (·.tag)).getD .unknown

/-- The entries of a mapping. -/
def entries? (g : Graph) (n : Nat) : Option (List (Nat × Nat)) :=
  match g.content? n with
  | some (.mapping es) => some es
  | _ => none

def setTag (g : Graph) (n : Nat) (tag : Tag) : Graph :=
  { g with nodes := g.nodes.modify n fun node => { node with tag } }

def setEntries (g : Graph) (n : Nat) (es : List (Nat × Nat)) : Graph :=
  { g with nodes := g.nodes.modify n fun node => { node with content := .mapping es } }

/-- The text of a scalar, or of the default entry of a mapping that stands for a scalar. -/
def scalarText (g : Graph) : (fuel : Nat) → Nat → Except Fault (List CodePoint)
  | 0, _ => .error .endless
  | fuel + 1, n =>
    match g.content? n with
    | some (.scalar text) => .ok text
    | some (.mapping entries) =>
      match entries.find? fun (k, _) => g.tag k = .default with
      | some (_, v) => g.scalarText fuel v
      | none => .error .malformed
    | _ => .error .malformed

def isMerge (g : Graph) (e : Nat × Nat) : Bool := g.tag e.1 = .merge

/-- How many entries of the graph merge a mapping into another. -/
def mergeCount (g : Graph) : Nat :=
  (List.range g.nodes.size).foldl (fun count n => count + ((g.entries? n).getD []).countP g.isMerge) 0

/-- The mappings that a merged value stands for: itself, or its items. -/
def mergedMappings (g : Graph) (v : Nat) : Except Fault (List Nat) :=
  match g.content? v with
  | some (.mapping _) => .ok [v]
  | some (.sequence items) =>
    if items.all fun n => (g.entries? n).isSome then .ok items else .error .malformed
  | _ => .error .malformed

/-- The keys of a mapping that mark its default entry are texts from now on. -/
def settleKeys (g : Graph) (n : Nat) : Graph :=
  ((g.entries? n).getD []).foldl
    (fun g (k, _) => if g.tag k = .default then g.setTag k .text else g) g

/-- Takes the entries that merge others out of a mapping, one after the other, and puts what they
merge, after `merged`, before the entries that are left. Of several mappings merged by one entry the
last comes first. The mappings that are merged are treated alike before; one of them may be the mapping
itself. Each step takes an entry out, which bounds their number. -/
def flatten : (fuel : Nat) → (merged : List (Nat × Nat)) → (n : Nat) → Graph → Except Fault Graph
  | 0, _, _, _ => .error .malformed
  | fuel + 1, merged, n, g => do
    let es := (g.entries? n).getD []
    match es.find? g.isMerge with
    | none => return (g.setEntries n (merged ++ es)).settleKeys n
    | some (_, v) =>
      let g := g.setEntries n (es.eraseP g.isMerge)
      let parts ← g.mergedMappings v
      let (found, g) ← parts.foldlM (fun (found, g) m => do
        let g ← flatten fuel [] m g
        return ((g.entries? m).getD [] :: found, g)) (([] : List (List (Nat × Nat))), g)
      flatten fuel (merged ++ found.flatten) n g

/-- The entries of a mapping with those of merged mappings, and the graph in which it has them. -/
def flattened (g : Graph) (n : Nat) : Except Fault (List (Nat × Nat) × Graph) :=
  match g.entries? n with
  | none => .error .malformed
  | some _ => do
    let g ← g.flatten (g.mergeCount + 1) [] n
    return ((g.entries? n).getD [], g)

end Graph

/-- A document in the making: its graph, the data so far and the collections whose parts are still to
come. -/
structure Progress where
  graph : Graph
  data : Array (Option Datum)
  waiting : Array Nat := #[]

namespace Progress

def set (p : Progress) (n : Nat) (d : Datum) : Progress :=
  { p with data := p.data.setIfInBounds n (some d) }

/-- The scalar of a type at a node. A moment must be written as a scalar. -/
def scalar (p : Progress) (n : Nat) (t : Tag) : Except Fault Scalar := do
  let text ← p.graph.scalarText (p.graph.nodes.size + 1) n
  if t = .timestamp && (p.graph.entries? n).isSome then .error .timestampMapping
  else match Scalar.ofText n text t with
    | some read => read
    | none => .error .malformed

/-- The datum of a node, as far as it is known without its parts. -/
def begin (p : Progress) (n : Nat) : Except Fault (Datum × Progress) :=
  match (p.data[n]?).join with
  | some d => .ok (d, p)
  | none =>
    let opened (d : Datum) : Except Fault (Datum × Progress) :=
      .ok (d, { p.set n d with waiting := p.waiting.push n })
    match p.graph.tag n with
    | .sequence => opened .list
    | .orderedMap => opened .list
    | .pairs => opened .list
    | .set => opened .set
    | .mapping => opened (.mapping [])
    | .merge => .error .malformed
    | .default => .error .malformed
    | .unknown => .error .malformed
    | t => do
      let s ← p.scalar n t
      return (.scalar s, p.set n (.scalar s))

/-- A key of a mapping, which must be a scalar. -/
def beginKey (p : Progress) (n : Nat) : Except Fault (Scalar × Progress) := do
  match ← p.begin n with
  | (.scalar s, p) => return (s, p)
  | _ => .error .malformed

def beginItems (p : Progress) (items : List Nat) : Except Fault Progress :=
  items.foldlM (fun p n => (·.2) <$> p.begin n) p

def beginEntries : Progress → List (Nat × Nat) → List (Scalar × Nat) →
    Except Fault (List (Scalar × Nat) × Progress)
  | p, [], done => .ok (done, p)
  | p, (k, v) :: es, done => do
    let (key, p) ← p.beginKey k
    let (_, p) ← p.begin v
    beginEntries p es (insertKey key v done)

/-- A mapping with one entry, as an item of an ordered mapping. -/
def beginPair (p : Progress) (n : Nat) : Except Fault Progress :=
  match p.graph.entries? n with
  | some [(k, v)] => p.beginItems [k, v]
  | _ => .error .malformed

/-- Takes up the parts of a collection. -/
def resume (p : Progress) (n : Nat) : Except Fault Progress :=
  let items : Except Fault (List Nat) := match p.graph.content? n with
    | some (.sequence items) => .ok items
    | _ => .error .malformed
  match p.graph.tag n with
  | .sequence => do p.beginItems (← items)
  | .orderedMap => do (← items).foldlM beginPair p
  | .pairs => do (← items).foldlM beginPair p
  | t => do
    let (es, graph) ← p.graph.flattened n
    let (done, p) ← beginEntries { p with graph } es []
    return if t = .set then p else p.set n (.mapping done)

/-- Takes up the waiting collections from the `next` one on. Each node waits at most once. -/
def resumeAll : (fuel : Nat) → (next : Nat) → Progress → Except Fault Progress
  | 0, _, _ => .error .malformed
  | fuel + 1, next, p =>
    match p.waiting[next]? with
    | none => .ok p
    | some n => do resumeAll fuel (next + 1) (← p.resume n)

end Progress

/-- The data of a graph. -/
def Graph.document (g : Graph) : Except Fault Document := do
  let (_, p) ← Progress.begin { graph := g, data := Array.replicate g.nodes.size none } g.root
  let p ← p.resumeAll (g.nodes.size + 1) 0
  return ⟨p.data, g.root⟩

/-- The document of a text, if there is one in it. -/
def load (cs : List Char) : Except Fault (Option Document) := do
  match ← Graph.ofTokens (.ofText cs) with
  | none => return none
  | some g => some <$> g.document

end Stubsmith.Yaml
