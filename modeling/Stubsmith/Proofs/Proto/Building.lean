import Stubsmith.Proofs.Proto.Derivation
import Stubsmith.Proofs.Proto.Run

/-!
# The trees that the stack builds

The children of every open node are derivations, and what may still come is what the shape of its rule
leaves behind them. Shifting a token keeps this and adds the token behind all others, so closing the
stack gives a derivation with the shifted tokens in order.
-/
namespace Stubsmith.Proto

/-- A token that is a lexeme of its kind is a derivation. -/
lemma Terminal.Spells.derives {t : Token} (h : t.kind.Spells t.text) : (Tree.leaf t).Derives := by
  refine .leaf t fun s hs => ?_
  obtain ⟨kind, text, position⟩ := t
  cases h with
  | fixed hv => exact Option.some.inj (hv.symm.trans hs)
  | ident => cases hs
  | string => cases hs
  | word => cases hs

namespace Frame

/-- The tokens of the children read so far. -/
def tokens (f : Frame) : List Token := f.children.reverse.flatMap Tree.tokens

/-- The children are derivations and `rest` is what may come behind them. -/
structure Sound (f : Frame) : Prop where
  derives : ∀ c ∈ f.children, c.Derives
  rest : f.rest = (f.children.reverse.map Tree.piece).foldl (fun s p => s.after p) f.rule.shape

variable {f : Frame} {t : Tree}

lemma sound_opening (r : Rule) : (opening r).Sound := ⟨by simp [opening], rfl⟩

lemma Sound.push (h : f.Sound) (ht : t.Derives) : (f.push t).Sound where
  derives := by
    intro c hc
    rcases List.mem_cons.mp hc with rfl | hc
    · exact ht
    · exact h.derives c hc
  rest := by simp [Frame.push, h.rest]

lemma Sound.tree (h : f.Sound) (hn : f.rest.nullable = true) : f.tree.Derives := by
  rw [h.rest, ← Shape.matches_iff] at hn
  refine .node f.rule _ hn (Tree.derivesAll_iff.mpr fun c hc => ?_)
  exact h.derives c (List.mem_reverse.mp hc)

@[simp] lemma tokens_opening (r : Rule) : (opening r).tokens = [] := rfl

@[simp] lemma tokens_push : (f.push t).tokens = f.tokens ++ t.tokens := by simp [tokens, push]

@[simp] lemma tokens_tree : f.tree.tokens = f.tokens := by simp [tree, Tree.tokens, tokens]

@[simp] lemma rule_push : (f.push t).rule = f.rule := rfl

end Frame

/-- The open nodes, innermost first, are sound, belong to a file and hold the tokens `ts`. -/
structure Builds (fs : List Frame) (ts : List Token) : Prop where
  sound : ∀ f ∈ fs, f.Sound
  tokens : fs.reverse.flatMap Frame.tokens = ts
  root : fs.getLast?.map Frame.rule = some .file

variable {f p : Frame} {below : List Frame} {ts : List Token} {t : Token}

/-- A node that is entered takes the token itself, or opens a node that is entered. -/
lemma Frame.enter?_eq_some {depth : Nat} {gs : List Frame} (h : f.enter? t depth = some gs) :
    (.token t.kind ∈ f.rest.firsts ∧ gs = [f.push (.leaf t)]) ∨
      ∃ r d hs, depth = d + 1 ∧ .rule r ∈ f.rest.firsts ∧ (opening r).enter? t d = some hs ∧ gs = hs ++ [f] := by
  unfold enter? at h
  split at h
  · next k hk =>
    have hkind : k = t.kind := by simpa [Piece.begins] using List.find?_some hk
    subst hkind
    exact Or.inl ⟨List.mem_of_find?_eq_some hk, (Option.some.inj h).symm⟩
  · next r d hr =>
    obtain ⟨hs, henter, rfl⟩ := Option.map_eq_some_iff.mp h
    exact Or.inr ⟨r, d, hs, rfl, List.mem_of_find?_eq_some hr, henter, rfl⟩
  · cases h

/-- The frames on the way down to a token take the place of the frame that was entered. -/
lemma Frame.enter?_spec {depth : Nat} {gs : List Frame} (h : f.enter? t depth = some gs) (hf : f.Sound)
    (ht : t.kind.Spells t.text) :
    (∀ g ∈ gs, g.Sound) ∧ gs.reverse.flatMap Frame.tokens = f.tokens ++ [t] ∧
      gs.getLast?.map Frame.rule = some f.rule := by
  induction depth generalizing f gs with
  | zero =>
    rcases enter?_eq_some h with ⟨-, rfl⟩ | ⟨r, d, hs, hd, -⟩
    · exact ⟨by simpa using hf.push ht.derives, by simp [Tree.tokens], rfl⟩
    · cases hd
  | succ depth ih =>
    rcases enter?_eq_some h with ⟨-, rfl⟩ | ⟨r, d, hs, hd, -, hin, rfl⟩
    · exact ⟨by simpa using hf.push ht.derives, by simp [Tree.tokens], rfl⟩
    · cases hd
      obtain ⟨hsound, htokens, -⟩ := ih hin (sound_opening r)
      refine ⟨?_, by simp [htokens], by simp⟩
      intro g hg
      rcases List.mem_append.mp hg with hg | hg
      · exact hsound g hg
      · rw [List.mem_singleton.mp hg]
        exact hf

/-- A shifted token enters the innermost node, or that node is closed first. -/
lemma Stack.shiftInto_eq_some {s : Stack} (h : shiftInto t f below = some s) :
    (∃ g gs, f.enter? t Frame.maxDepth = some (g :: gs) ∧ s = ⟨g, gs ++ below⟩) ∨
    ∃ p ps, below = p :: ps ∧ f.rest.nullable = true ∧ shiftInto t (p.push f.tree) ps = some s := by
  rw [shiftInto.eq_def] at h
  dsimp only at h
  split at h
  · next g gs he =>
    cases h
    exact Or.inl ⟨g, gs, he, rfl⟩
  · split_ifs at h with hn
    cases below with
    | nil => cases h
    | cons p ps => exact Or.inr ⟨p, ps, rfl, hn, h⟩

namespace Builds

/-- An inner node that may end becomes a child of the node around it. -/
lemma close (h : Builds (f :: p :: below) ts) (hn : f.rest.nullable = true) :
    Builds (p.push f.tree :: below) ts where
  sound := by
    have hf := (h.sound f (by simp)).tree hn
    intro g hg
    rcases List.mem_cons.mp hg with rfl | hg
    · exact (h.sound p (by simp)).push hf
    · exact h.sound g (by simp [hg])
  tokens := by simpa using h.tokens
  root := by
    have hr := h.root
    rw [List.getLast?_cons_cons] at hr
    cases below with
    | nil => simpa using hr
    | cons q qs => simpa using hr

/-- A node that is entered is replaced by the frames down to the token. -/
lemma enter {g : Frame} {gs : List Frame} (h : Builds (f :: below) ts) (ht : t.kind.Spells t.text)
    (he : f.enter? t Frame.maxDepth = some (g :: gs)) : Builds (g :: (gs ++ below)) (ts ++ [t]) := by
  obtain ⟨hsound, htokens, hroot⟩ := Frame.enter?_spec he (h.sound f (by simp)) ht
  have htok := h.tokens
  have hr := h.root
  rw [← List.cons_append]
  refine ⟨?_, ?_, ?_⟩
  · intro q hq
    rcases List.mem_append.mp hq with hq | hq
    · exact hsound q hq
    · exact h.sound q (List.mem_cons_of_mem f hq)
  · rw [List.reverse_append, List.flatMap_append, htokens, ← htok]
    simp
  · cases below with
    | nil =>
      rw [List.append_nil, hroot, ← hr]
      rfl
    | cons p ps =>
      rw [List.getLast?_append_of_ne_nil _ (by simp), ← hr, List.getLast?_cons_cons]

lemma shiftInto {s : Stack} (h : Builds (f :: below) ts) (ht : t.kind.Spells t.text)
    (hs : Stack.shiftInto t f below = some s) : Builds (s.top :: s.below) (ts ++ [t]) := by
  induction below generalizing f with
  | nil =>
    rcases Stack.shiftInto_eq_some hs with ⟨g, gs, he, rfl⟩ | ⟨p, ps, hp, -, -⟩
    · exact h.enter ht he
    · cases hp
  | cons p ps ih =>
    rcases Stack.shiftInto_eq_some hs with ⟨g, gs, he, rfl⟩ | ⟨q, qs, hp, hn, hs'⟩
    · exact h.enter ht he
    · cases hp
      exact ih (h.close hn) hs'

lemma closeInto {tree : Tree} (h : Builds (f :: below) ts) (hc : Stack.closeInto f below = some tree) :
    tree.Derives ∧ tree.tokens = ts ∧ tree.piece = .rule .file := by
  induction below generalizing f with
  | nil =>
    rw [Stack.closeInto] at hc
    split_ifs at hc with hn
    cases hc
    have htok := h.tokens
    have hr := h.root
    refine ⟨(h.sound f (by simp)).tree hn, by simpa using htok, ?_⟩
    simp only [List.getLast?_singleton, Option.map_some, Option.some.injEq] at hr
    rw [Frame.tree, Tree.piece, hr]
  | cons p ps ih =>
    rw [Stack.closeInto] at hc
    split_ifs at hc with hn
    exact ih (h.close hn) hc

/-- Shifting tokens one after the other adds them in order. -/
lemma shiftAll {s last : Stack} {us : List Token} (h : Builds (s.top :: s.below) ts)
    (hus : ∀ t ∈ us, t.kind.Spells t.text) (hs : us.foldlM Stack.shift? s = some last) :
    Builds (last.top :: last.below) (ts ++ us) := by
  induction us generalizing s ts with
  | nil =>
    cases hs
    simpa using h
  | cons u us ih =>
    rw [List.foldlM_cons] at hs
    obtain ⟨s', hs', hrest⟩ := Option.bind_eq_some_iff.mp hs
    have hu := h.shiftInto (hus u (by simp)) hs'
    have hall := ih hu (fun t ht => hus t (by simp [ht])) hrest
    rwa [List.append_assoc, List.singleton_append] at hall

/-- A file of which nothing has been read. -/
lemma start : Builds (Reader.start.stack.top :: Reader.start.stack.below) [] :=
  ⟨by simp [Reader.start, Frame.sound_opening], rfl, rfl⟩

end Builds

/-- A text is read if it is run to its end and all nodes can be closed there. -/
lemma read_eq_ok_iff {cs : List Char} {tree : Tree} {comments : List Comment} :
    read cs = .ok (tree, comments) ↔
      ∃ r, Reader.start.run 0 cs = .ok r ∧ r.stack.close? = some tree ∧ r.comments.reverse = comments := by
  unfold read
  cases Reader.start.run 0 cs with
  | error e => simp [bind, Except.bind]
  | ok r =>
    cases hclose : r.stack.close? with
    | none => simp [bind, Except.bind, Reader.finish, hclose]
    | some t => simp [bind, Except.bind, Reader.finish, hclose, pure, Except.pure]

/-- The parse tree of a text is a derivation of a file and holds the tokens of the text in order. -/
theorem read_eq_ok {cs : List Char} {tree : Tree} {comments : List Comment}
    (h : read cs = .ok (tree, comments)) :
    ∃ ms, Scanned .start cs ms ∧ tree.Derives ∧ tree.piece = .rule .file ∧
      tree.tokens = tokensOf ms ∧ comments = commentsOf ms := by
  obtain ⟨r, hrun, hclose, hcomments⟩ := read_eq_ok_iff.mp h
  obtain ⟨ms, hms, hstack, hcom, -⟩ := Reader.run_scanned hrun
  have hbuilds := Builds.start.shiftAll hms.spelled hstack
  obtain ⟨hd, htok, hpiece⟩ := hbuilds.closeInto hclose
  refine ⟨ms, hms, hd, hpiece, htok, ?_⟩
  rw [← hcomments, hcom, show Reader.start.comments = [] from rfl, List.append_nil, List.reverse_reverse]

end Stubsmith.Proto
