import Stubsmith.Proofs.Proto.Joining

/-!
# Completing a file

Whatever has been read of a file, some tokens complete it. At each stage of a rule a few pieces lead to the end of its
node, and the open nodes are brought to their ends one after the other, from the innermost on. Behind a line end these
tokens are read with blanks between them.
-/
namespace Stubsmith.Proto

/-- A lexeme of the terminal. -/
def Terminal.specimen : Terminal → List Char
  | ident => ['a']
  | string => ['"', '"']
  | word => ['a']
  | t => t.spelling?.getD []

/-- A sequence of pieces that the shape describes, if there is one. Nothing is repeated, and of two choices the last
is taken. -/
def Shape.specimen : Shape → Option (List Piece)
  | never => none
  | empty => some []
  | piece p => some [p]
  | seq a b => a.specimen.bind fun u => b.specimen.map (u ++ ·)
  | alt a b => b.specimen <|> a.specimen
  | many _ => some []

/-- A node of the piece with at most `depth` levels of nodes below it. -/
def Piece.specimen : (depth : Nat) → Piece → Node
  | _, token t => .mk t.name (Text.points t.specimen) none []
  | 0, rule r => .mk r.name [] none []
  | depth + 1, rule r => .mk r.name [] none ((r.shape.specimen.getD []).map (specimen depth))

/-- Nodes that bring a node to its end of which this shape may still come. -/
def Shape.ending (s : Shape) : List Node := (s.specimen.getD []).map (Piece.specimen 2)

def Shape.endingTexts (s : Shape) : List (List Char) :=
  (s.ending.flatMap Node.leaves).map fun n => Text.chars n.value

/-- At every stage of a rule the node can be brought to its end, without words and without a name that is a
keyword. -/
lemma check_endings : ∀ r ∈ Rule.all, ∀ s ∈ r.stages, Node.areDerivations s.ending = true ∧
    (s.ending.mapM fun n => Piece.ofName? n.kind) = some (s.specimen.getD []) ∧
    ((s.specimen.getD []).foldl (fun t p => t.after p) s).nullable = true ∧
    ∀ n ∈ s.ending.flatMap Node.leaves, n.kind ≠ Terminal.word.name ∧ n.value ≠ Keyword.kwStream.spelling := by
  decide +kernel

/-- Trees that bring a node to its end. Their tokens have the texts of the ending, and none of them can be taken for
another one. -/
structure Shape.Ends (s : Shape) (ts : List Tree) : Prop where
  derives : Tree.DerivesAll ts
  fits : s.Matches (ts.map Tree.piece)
  texts : (ts.flatMap Tree.tokens).map Token.text = s.endingTexts
  spelled : ∀ k ∈ ts.flatMap Tree.tokens, k.kind.Spells k.text
  plain : ∀ k ∈ ts.flatMap Tree.tokens, k.kind ≠ .word ∧ k.text ≠ Keyword.kwStream.spelling.toList

lemma exists_ends {r : Rule} {s : Shape} (hs : s ∈ r.stages) (at_ : List Position)
    (hlen : at_.length = s.endingTexts.length) :
    ∃ ts, s.Ends ts ∧ (ts.flatMap Tree.tokens).map Token.position = at_ := by
  obtain ⟨hcheck, hpieces, hfits, hplain⟩ := check_endings r (Rule.mem_all r) s hs
  obtain ⟨ts, hts⟩ := (Node.derivationAll_of_check _ hcheck hpieces).mirrored at_
    (by rw [hlen, Shape.endingTexts, List.length_map])
  refine ⟨ts, ⟨Tree.derivesAll_iff.mpr hts.derives, ?_, ?_, hts.spelled, fun k hk => ?_⟩, hts.positions⟩
  · rw [hts.pieces]
    exact Shape.matches_iff.mpr hfits
  · have htexts := congrArg (List.map fun n => Text.chars n.value) hts.leaves
    simpa [Function.comp_def, Shape.endingTexts] using htexts
  · have hleaf : k.leaf ∈ (s.ending.flatMap Node.leaves).map Node.unlined := hts.leaves ▸ List.mem_map_of_mem hk
    obtain ⟨n, hn, heq⟩ := List.mem_map.mp hleaf
    obtain ⟨hkind, hname⟩ := hplain n hn
    rw [← n.kind_unlined, heq, Token.kind_leaf] at hkind
    rw [← n.value_unlined, heq, Token.value_leaf] at hname
    exact ⟨fun he => hkind (by rw [he]), fun he => hname (by rw [he])⟩

namespace Stack

variable {s : Stack} {last : Option Token} {g : Frame} {below : List Frame}

lemma isChain_behind {α : Type} {R : α → α → Prop} {last : Option α} {ts : List α} (h : ∀ a, ∀ b ∈ ts, R a b) :
    (last.toList ++ ts).IsChain R := by
  have hts : ts.IsChain R :=
    List.Pairwise.isChain (List.pairwise_of_forall_mem_list fun a _ b hb => h a b hb)
  cases last with
  | none => exact hts
  | some a => exact List.isChain_cons.mpr ⟨fun b hb => h a b (List.mem_of_mem_head? hb), hts⟩

/-- A stack that rests at an open node takes the tokens that bring the node to its end. -/
lemma Rests.finish {ts : List Tree} (h : Rests s last g below) (hends : g.rest.Ends ts) :
    ∃ s', Takes s (ts.flatMap Tree.tokens) s' ∧
      Rests s' (lastOf last (ts.flatMap Tree.tokens)) (g.pushAll ts) below ∧
      (g.pushAll ts).rest.nullable = true := by
  have hmarked : Marked last (ts.flatMap Tree.tokens) :=
    isChain_behind fun a b hb hbare => (hends.plain b hb).2 hbare.2.2
  have hclear : Clear last (ts.flatMap Tree.tokens) :=
    isChain_behind fun a b hb hmis => (hends.plain b hb).1 hmis.2.1
  obtain ⟨s', htakes, hrests⟩ := (reads_trees hends.derives hends.spelled h hends.fits hmarked).takes hclear
  refine ⟨s', htakes, hrests, ?_⟩
  rw [Frame.pushAll_rest]
  exact Shape.matches_iff.mp hends.fits

/-- The texts of the tokens that bring all open nodes to their ends. -/
def endings : Shape → Rule → List Frame → List (List Char)
  | s, _, [] => s.endingTexts
  | s, r, p :: ps => s.endingTexts ++ endings (p.rest.after (.rule r)) p.rule ps

/-- A stack that rests at an open node takes the tokens that bring all open nodes to their ends, wherever they
stand. -/
theorem Rests.complete (h : Rests s last g below) (hn : Nested g below) (at_ : List Position)
    (hlen : at_.length = (endings g.rest g.rule below).length) :
    ∃ ts s' tree, ts.map Token.text = endings g.rest g.rule below ∧ ts.map Token.position = at_ ∧
      Takes s ts s' ∧ s'.close? = some tree := by
  induction below generalizing s last g at_ with
  | nil =>
    obtain ⟨ts, hends, hat⟩ := exists_ends hn.stage at_ hlen
    obtain ⟨s', htakes, hrests, hnull⟩ := h.finish hends
    exact ⟨_, s', _, hends.texts, hat, htakes, by rw [hrests.close, closeInto, if_pos hnull]⟩
  | cons p ps ih =>
    rw [endings, List.length_append] at hlen
    obtain ⟨ts, hends, hat⟩ := exists_ends hn.stage (at_.take g.rest.endingTexts.length)
      (by rw [List.length_take]; omega)
    obtain ⟨s', htakes, hrests, hnull⟩ := h.finish hends
    cases hn with
    | inner _ _ hfirst hp =>
      have hpiece : (g.pushAll ts).tree.piece ∈ p.rest.firsts := by
        rwa [Frame.tree, Tree.piece, Frame.pushAll_rule]
      have hleft := hrests.leave hp.stage hpiece hnull
      have hrest : (p.push (g.pushAll ts).tree).rest = p.rest.after (.rule g.rule) := by
        rw [Frame.push, Frame.tree, Tree.piece, Frame.pushAll_rule]
      obtain ⟨us, s'', tree, htexts, hat', htakes', hclose⟩ := ih hleft (hp.push hpiece)
        (at_.drop g.rest.endingTexts.length) (by rw [List.length_drop, hrest, Frame.rule_push]; omega)
      rw [hrest, Frame.rule_push] at htexts
      refine ⟨_, s'', tree, ?_, ?_, htakes.append htakes', hclose⟩
      · rw [List.map_append, hends.texts, htexts, endings]
      · rw [List.map_append, hat, hat', List.take_append_drop]

end Stack

namespace Reader

/-- Behind a line end a reader takes the tokens that complete the file. -/
theorem exists_continuation {u : List Char} {last : Reader} (h : start.run 0 u = .ok last) :
    ∃ more r tree, last.run 0 ('\n' :: more) = .ok r ∧ r.stack.close? = some tree := by
  obtain ⟨ms, -, hstack, -⟩ := run_scanned h
  obtain ⟨hn, hb⟩ := nested_shiftAll hstack
  obtain ⟨text, hlayout⟩ : ∃ text,
      Layout (Stack.endings last.stack.top.rest last.stack.top.rule last.stack.below) text :=
    ⟨_, layout_joinWith (s := [' ']) (by decide) (List.all_eq_true.mp (by decide)) _⟩
  obtain ⟨ps, hlen, hrun⟩ := hlayout.run (last.position.after ['\n'])
  obtain ⟨ts, s, tree, htexts, hat, htakes, hclose⟩ := (Stack.rests_self hb).complete hn ps hlen
  obtain ⟨r, hr, rfl, -⟩ :=
    (hrun ts htexts hat { last with position := last.position.after ['\n'] } rfl).1 s htakes
  refine ⟨text, r, tree, ?_, hclose⟩
  rw [← hr]
  exact @run_spaces last text ['\n'] (List.all_eq_true.mp (by decide))

end Reader

end Stubsmith.Proto
