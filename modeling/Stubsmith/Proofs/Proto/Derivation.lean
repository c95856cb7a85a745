import Stubsmith.Proofs.Proto.Lexeme
import Stubsmith.Proofs.Proto.Shape
import Stubsmith.Proto.Tree

/-!
# Derivation trees

A syntax tree is a derivation of a rule if the children of each of its inner nodes fit the shape of the
rule that the node is named after and each of its leaves is a lexeme of its terminal. Line numbers play
no part in it. Every derivation is the syntax tree of a parse tree, for any positions of its tokens.
-/
namespace Stubsmith.Proto

open Text (CodePoint)

namespace Node

mutual

/-- The tree without its line numbers. -/
def unlined : Node → Node
  | mk k v _ cs => mk k v none (unlinedAll cs)

def unlinedAll : List Node → List Node
  | [] => []
  | n :: ns => n.unlined :: unlinedAll ns

end

mutual

/-- The leaves from left to right: the nodes that have a text of their own. -/
def leaves : Node → List Node
  | mk k v l [] => if v = [] then [] else [mk k v l []]
  | mk _ _ _ (c :: cs) => c.leaves ++ leavesAll cs

def leavesAll : List Node → List Node
  | [] => []
  | n :: ns => n.leaves ++ leavesAll ns

end

mutual

/-- The tree is a derivation of a piece: a lexeme of a terminal, or a node of a rule. -/
inductive Derivation : Piece → Node → Prop
  | leaf {t : Terminal} {v : List Char} (l : Option Int) :
      t.Spells v → Derivation (.token t) (.mk t.name (Text.points v) l [])
  | node {r : Rule} {ps : List Piece} {ns : List Node} (l : Option Int) :
      r.shape.Matches ps → DerivationAll ps ns → Derivation (.rule r) (.mk r.name [] l ns)

/-- The trees are derivations of the pieces, one by one. -/
inductive DerivationAll : List Piece → List Node → Prop
  | nil : DerivationAll [] []
  | cons {p : Piece} {n : Node} {ps : List Piece} {ns : List Node} :
      Derivation p n → DerivationAll ps ns → DerivationAll (p :: ps) (n :: ns)

end

@[simp] theorem unlinedAll_eq (ns : List Node) : unlinedAll ns = ns.map unlined := by
  induction ns with
  | nil => rfl
  | cons n ns ih => rw [unlinedAll, ih, List.map_cons]

@[simp] theorem leavesAll_eq (ns : List Node) : leavesAll ns = ns.flatMap leaves := by
  induction ns with
  | nil => rfl
  | cons n ns ih => rw [leavesAll, ih, List.flatMap_cons]

@[simp] theorem kind_unlined (n : Node) : n.unlined.kind = n.kind := by
  cases n
  rfl

@[simp] theorem value_unlined (n : Node) : n.unlined.value = n.value := by
  cases n
  rfl

theorem leaves_leaf {k : List CodePoint} {v : List Char} {l : Option Int} (h : v ≠ []) :
    (mk k (Text.points v) l []).leaves = [mk k (Text.points v) l []] := by
  rw [leaves, if_neg (mt Text.points_eq_nil.mp h)]

/-- A node without a text of its own has the leaves of its children. -/
theorem leaves_node {k : List CodePoint} {l : Option Int} {ns : List Node} :
    (mk k [] l ns).leaves = ns.flatMap leaves := by
  cases ns with
  | nil => rfl
  | cons n ns => rw [leaves, leavesAll_eq, List.flatMap_cons]

end Node

namespace Tree

@[simp] theorem tokensAll_eq (ts : List Tree) : tokensAll ts = ts.flatMap tokens := by
  induction ts with
  | nil => rfl
  | cons t ts ih => rw [tokensAll, ih, List.flatMap_cons]

@[simp] theorem toNodes_eq (comments : List Comment) (ts : List Tree) :
    toNodes comments ts = ts.map (toNode comments) := by
  induction ts with
  | nil => rfl
  | cons t ts ih => rw [toNodes, ih, List.map_cons]

theorem derivesAll_iff {ts : List Tree} : DerivesAll ts ↔ ∀ t ∈ ts, t.Derives := by
  induction ts with
  | nil => exact ⟨fun _ _ h => absurd h (by simp), fun _ => .nil⟩
  | cons t ts ih =>
    rw [List.forall_mem_cons]
    constructor
    · rintro (_ | ⟨_, _, h, hs⟩)
      exact ⟨h, ih.mp hs⟩
    · rintro ⟨h, hs⟩
      exact .cons _ _ h (ih.mpr hs)

end Tree

lemma weave_nil {α : Type} {ts : List Tree} {form : Comment → α} {f : Tree → α} :
    weave form ((ts.map Tree.start).zip (ts.map f)) [] = ts.map f := by
  induction ts with
  | nil => rfl
  | cons t ts ih => simpa [weave] using ih

lemma bodyComments_nil (service : List Tree) : bodyComments service [] = [] := by
  unfold bodyComments
  split <;> rfl

/-- Without comments, a syntax tree has the structure of its parse tree. -/
theorem Tree.toNode_node (r : Rule) (cs : List Tree) :
    (Tree.node r cs).toNode [] =
      .mk r.name [] ((Tree.node r cs).line.map Int.ofNat) (cs.map (Tree.toNode [])) := by
  rw [Tree.toNode, toNodes_eq, bodyComments_nil, weave_nil, ite_self]

/-- The token as a leaf without a line number. -/
def Token.leaf (t : Token) : Node := .mk t.kind.name (Text.points t.text) none []

@[simp] theorem Token.kind_leaf (t : Token) : t.leaf.kind = t.kind.name := rfl

@[simp] theorem Token.value_leaf (t : Token) : t.leaf.value = Text.points t.text := rfl

/-- The parse trees `ts` have their tokens at the positions `at_` and are derivations with the structure
of the syntax trees `ns`. -/
structure Mirrors (ps : List Piece) (ns : List Node) (at_ : List Position) (ts : List Tree) : Prop where
  derives : ∀ t ∈ ts, t.Derives
  pieces : ts.map Tree.piece = ps
  nodes : ts.map (fun t => (t.toNode []).unlined) = ns.map Node.unlined
  leaves : (ts.flatMap Tree.tokens).map Token.leaf = (ns.flatMap Node.leaves).map Node.unlined
  positions : (ts.flatMap Tree.tokens).map Token.position = at_
  spelled : ∀ t ∈ ts.flatMap Tree.tokens, t.kind.Spells t.text

namespace Mirrors

lemma leaf {t : Terminal} {v : List Char} (l : Option Int) (h : t.Spells v) (p : Position) :
    Mirrors [.token t] [.mk t.name (Text.points v) l []] [p] [.leaf ⟨t, v, p⟩] where
  derives := by
    intro u hu
    rw [List.mem_singleton] at hu
    subst hu
    refine .leaf _ fun s hs => ?_
    cases h with
    | fixed hv => exact Option.some.inj (hv.symm.trans hs)
    | ident => cases hs
    | string => cases hs
    | word => cases hs
  pieces := rfl
  nodes := by simp [Tree.toNode, Node.unlined]
  leaves := by
    simp [Tree.tokens, Token.leaf, Node.leaves_leaf h.ne_nil, Node.unlined]
  positions := by simp [Tree.tokens]
  spelled := by
    intro u hu
    simp only [List.flatMap_cons, List.flatMap_nil, List.append_nil, Tree.tokens,
      List.mem_singleton] at hu
    subst hu
    exact h

lemma node {r : Rule} {ps : List Piece} {ns : List Node} {at_ : List Position} {ts : List Tree}
    (l : Option Int) (hm : r.shape.Matches ps) (h : Mirrors ps ns at_ ts) :
    Mirrors [.rule r] [.mk r.name [] l ns] at_ [.node r ts] where
  derives := by
    intro u hu
    rw [List.mem_singleton] at hu
    subst hu
    exact .node r ts (h.pieces ▸ hm) (Tree.derivesAll_iff.mpr h.derives)
  pieces := rfl
  nodes := by
    have hn := h.nodes
    simp [Tree.toNode_node, Node.unlined, Function.comp_def, hn]
  leaves := by simpa [Tree.tokens, Node.leaves_node] using h.leaves
  positions := by simpa [Tree.tokens] using h.positions
  spelled := by simpa [Tree.tokens] using h.spelled

lemma append {ps ps' : List Piece} {ns ns' : List Node} {at_ at_' : List Position}
    {ts ts' : List Tree} (h : Mirrors ps ns at_ ts) (h' : Mirrors ps' ns' at_' ts') :
    Mirrors (ps ++ ps') (ns ++ ns') (at_ ++ at_') (ts ++ ts') where
  derives := by
    intro t ht
    rcases List.mem_append.mp ht with ht | ht
    · exact h.derives t ht
    · exact h'.derives t ht
  pieces := by rw [List.map_append, h.pieces, h'.pieces]
  nodes := by rw [List.map_append, List.map_append, h.nodes, h'.nodes]
  leaves := by
    rw [List.flatMap_append, List.map_append, h.leaves, h'.leaves, List.flatMap_append,
      List.map_append]
  positions := by rw [List.flatMap_append, List.map_append, h.positions, h'.positions]
  spelled := by
    intro t ht
    rw [List.flatMap_append] at ht
    rcases List.mem_append.mp ht with ht | ht
    · exact h.spelled t ht
    · exact h'.spelled t ht

end Mirrors

mutual

/-- A derivation is the syntax tree of a parse tree with any given positions. -/
theorem Node.Derivation.mirrored {p : Piece} {n : Node} (h : n.Derivation p) (at_ : List Position)
    (hl : at_.length = n.leaves.length) : ∃ t, Mirrors [p] [n] at_ [t] := by
  cases h with
  | leaf l hv =>
    rw [Node.leaves_leaf hv.ne_nil] at hl
    obtain ⟨q, rfl⟩ := List.length_eq_one_iff.mp hl
    exact ⟨_, .leaf l hv q⟩
  | node l hm hs =>
    rw [Node.leaves_node] at hl
    obtain ⟨ts, ht⟩ := hs.mirrored at_ hl
    exact ⟨_, .node l hm ht⟩

theorem Node.DerivationAll.mirrored {ps : List Piece} {ns : List Node}
    (h : Node.DerivationAll ps ns) (at_ : List Position)
    (hl : at_.length = (ns.flatMap Node.leaves).length) : ∃ ts, Mirrors ps ns at_ ts := by
  cases h with
  | nil =>
    obtain rfl := List.length_eq_zero_iff.mp hl
    exact ⟨[], ⟨by simp, rfl, rfl, rfl, rfl, by simp⟩⟩
  | @cons p n ps ns hn hs =>
    rw [List.flatMap_cons, List.length_append] at hl
    obtain ⟨t, ht⟩ := hn.mirrored (at_.take n.leaves.length)
      (by rw [List.length_take]; omega)
    obtain ⟨ts, hts⟩ := hs.mirrored (at_.drop n.leaves.length)
      (by rw [List.length_drop]; omega)
    have ha := ht.append hts
    rw [List.take_append_drop] at ha
    exact ⟨_, ha⟩

end

/-- The kind of the nodes that stand for a piece. -/
def Piece.name : Piece → String
  | token t => t.name
  | rule r => r.name

/-- The piece with a name. -/
def Piece.ofName? (k : List CodePoint) : Option Piece :=
  (Terminal.all.map Piece.token ++ Rule.all.map Piece.rule).find? fun p => (p.name : List CodePoint) == k

lemma Piece.name_of_ofName? {k : List CodePoint} {p : Piece} (h : Piece.ofName? k = some p) :
    (p.name : List CodePoint) = k := by
  simpa using List.find?_some h

namespace Node

mutual

/-- The tree is a derivation of the piece that it is named after. -/
def isDerivation : Node → Bool
  | mk k v _ cs =>
    match Piece.ofName? k with
    | some (.token t) => decide (t.Spells (Text.chars v)) && v == Text.points (Text.chars v) && cs.isEmpty
    | some (.rule r) =>
      match cs.mapM fun c => Piece.ofName? c.kind with
      | some ps => v == [] && (ps.foldl (fun s p => s.after p) r.shape).nullable && areDerivations cs
      | none => false
    | none => false

def areDerivations : List Node → Bool
  | [] => true
  | n :: ns => n.isDerivation && areDerivations ns

end

mutual

/-- A tree that is checked to be a derivation is one. -/
theorem derivation_of_check : ∀ (n : Node) {p : Piece}, n.isDerivation = true →
    Piece.ofName? n.kind = some p → n.Derivation p
  | mk k v l cs, p, h, hp => by
    have hk := Piece.name_of_ofName? hp
    simp only [kind] at hp hk
    rw [isDerivation, hp] at h
    cases p with
    | token t =>
      simp only [Bool.and_eq_true, decide_eq_true_eq, beq_iff_eq, List.isEmpty_iff] at h
      obtain ⟨⟨hv, hplain⟩, rfl⟩ := h
      have hleaf := Derivation.leaf l hv
      rw [← hplain] at hleaf
      exact hk ▸ hleaf
    | rule r =>
      cases hps : cs.mapM fun c => Piece.ofName? c.kind with
      | none => simp [hps] at h
      | some ps =>
        simp only [hps, Bool.and_eq_true, beq_iff_eq] at h
        obtain ⟨⟨rfl, hm⟩, hcs⟩ := h
        have hnode := Derivation.node l (Shape.matches_iff.mpr hm)
          (derivationAll_of_check cs hcs hps)
        exact hk ▸ hnode

theorem derivationAll_of_check : ∀ (ns : List Node) {ps : List Piece}, areDerivations ns = true →
    (ns.mapM fun c => Piece.ofName? c.kind) = some ps → DerivationAll ps ns
  | [], ps, _, hps => by
    cases hps
    exact .nil
  | n :: ns, ps, h, hps => by
    rw [areDerivations, Bool.and_eq_true] at h
    simp only [List.mapM_cons, Option.bind_eq_bind, Option.bind_eq_some_iff, Option.pure_def,
      Option.some.injEq] at hps
    obtain ⟨p, hp, qs, hqs, rfl⟩ := hps
    exact .cons (derivation_of_check n h.1 hp) (derivationAll_of_check ns h.2 hqs)

end

end Node

end Stubsmith.Proto
