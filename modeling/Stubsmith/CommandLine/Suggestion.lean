/-!
# Suggestions

The names that a mistyped word is close to. Two words are compared by the parts they share: the longest
run of characters in both, the first in either word if there are several, and then what is shared on
either side of it. A name is close if at least three fifths of the characters of both words are shared.
-/
namespace Stubsmith.CommandLine

/-- The length of the longest common beginning of two lists. -/
def sharedLead : List Char → List Char → Nat
  | a :: as, b :: bs => if a = b then sharedLead as bs + 1 else 0
  | _, _ => 0

/-- A run that two words share: where it begins in each, and its length. -/
structure SharedRun where
  left : Nat
  right : Nat
  length : Nat
  deriving DecidableEq, Repr

/-- The longest run that two words share. -/
def longestRun (a b : List Char) : SharedRun :=
  let starts := (List.range a.length).flatMap fun i => (List.range b.length).map fun j => (i, j)
  starts.foldl (fun best (i, j) =>
    let length := sharedLead (a.drop i) (b.drop j)
    if best.length < length then ⟨i, j, length⟩ else best) ⟨0, 0, 0⟩

/-- How many characters two words share. Each run leaves less of the first word on either side, so its
length bounds their number. -/
def sharedWithin : (fuel : Nat) → List Char → List Char → Nat
  | 0, _, _ => 0
  | fuel + 1, a, b =>
    let r := longestRun a b
    if r.length = 0 then 0
    else sharedWithin fuel (a.take r.left) (b.take r.right) + r.length
      + sharedWithin fuel (a.drop (r.left + r.length)) (b.drop (r.right + r.length))

def shared (a b : List Char) : Nat := sharedWithin (a.length + 1) a b

/-- A name with the number of characters it shares with a word, out of those of both. -/
structure Likeness where
  name : String
  shared : Nat
  total : Nat

namespace Likeness

def of (word name : String) : Likeness :=
  ⟨name, CommandLine.shared name.toList word.toList, name.length + word.length⟩

def isClose (l : Likeness) : Bool := 3 * l.total ≤ 10 * l.shared

/-- The first is at least as close as the second; of equally close ones the later name counts more. -/
def atLeast (l m : Likeness) : Bool :=
  m.shared * l.total < l.shared * m.total
    || (m.shared * l.total = l.shared * m.total && decide (m.name ≤ l.name))

end Likeness

/-- The lengths of two words let them be close: they share no more than the shorter one has. -/
def comparable (word name : String) : Bool :=
  3 * (name.length + word.length) ≤ 10 * min name.length word.length

/-- How many names are suggested. -/
def suggestionLimit : Nat := 3

/-- The names closest to a word, in their order. -/
def suggestions (names : List String) (word : String) : List String :=
  let close := ((names.filter (comparable word)).map (Likeness.of word)).filter (·.isClose)
  (((close.mergeSort Likeness.atLeast).take suggestionLimit).map (·.name)).mergeSort
    fun a b => decide (a ≤ b)

end Stubsmith.CommandLine
