import Stubsmith.Proofs.Proto.Blanking
import Stubsmith.Proofs.Proto.Closing
import Stubsmith.Proofs.Proto.Moving

/-!
# Two texts one behind the other

A line end ends every lexeme, so two accepted texts with a line end between them are read one after the other.
The statements of the second are read as they are read alone, at another place, with one exception: behind a
statement that ends with a block words are offered, and there a keyword that is glued to what follows it is a
part of a word. Such a text is refused.
-/
namespace Stubsmith.Proto

open Proto.Frame (opening)

variable {c : Char} {u v rest more : List Char}

lemma takeWhile_newline {p : Char → Bool} (hp : p '\n' = false) (u more : List Char) :
    (u ++ '\n' :: more).takeWhile p = u.takeWhile p := by
  induction u with
  | nil => simp [hp]
  | cons c u ih =>
    rw [List.cons_append, List.takeWhile_cons, List.takeWhile_cons, ih]

lemma comment?_append (h : comment? (v ++ rest) = some v) : comment? (v ++ (rest ++ '\n' :: more)) = some v := by
  rw [← List.append_assoc]
  generalize v ++ rest = cs at h ⊢
  unfold comment? at h
  split at h
  · next cs =>
    rw [List.cons_append, List.cons_append, comment?, takeWhile_newline (by decide)]
    exact h
  · next cs =>
    obtain ⟨x, hx, rfl⟩ := Option.map_eq_some_iff.mp h
    obtain ⟨-, ⟨ys, rfl⟩, htail⟩ := blockCommentTail_spec hx
    rw [List.cons_append, List.cons_append, List.append_assoc, comment?, htail]
    rfl
  · cases h

lemma wordRun_newline (u more : List Char) : wordRun (u ++ '\n' :: more) = wordRun u := by
  induction u with
  | nil => rfl
  | cons c u ih =>
    have hends : endsWord c (u ++ '\n' :: more) = endsWord c u := by
      cases u with
      | nil => simp [endsWord]
      | cons d u => rfl
    rw [List.cons_append, wordRun, wordRun, hends, ih]

lemma Solid.newline (h : Solid rest v) (more : List Char) : Solid (rest ++ '\n' :: more) v := by
  cases h with
  | quoted hs => exact .quoted (string?_append (string?_spells hs).1 _)
  | run hne hv hc =>
    refine .run hne hv ?_
    cases rest with
    | cons d rest => exact hc
    | nil =>
      rw [List.take_nil, List.append_nil] at hc
      refine List.isChain_append.mpr ⟨hc, .singleton _, ?_⟩
      intro a _ b hb _
      rw [show b = '\n' from (Option.some.inj hb).symm]
      decide

/-- A line end behind the text changes no token. -/
lemma lexeme?_newline {o : Offer} {k : Terminal} (h : o.lexeme? (v ++ rest) = some (.token k v))
    (hs : Solid rest v) (hspace : ∀ c ∈ v.head?, isSpace c = false) (more : List Char) :
    o.lexeme? (v ++ (rest ++ '\n' :: more)) = some (.token k v) := by
  have hstr : string? (v ++ (rest ++ '\n' :: more)) = string? (v ++ rest) := by
    cases hs with
    | quoted hq => rw [string?_append (string?_spells hq).1, hq]
    | run hne hv _ =>
      obtain ⟨c, w, rfl⟩ := List.exists_cons_of_ne_nil hne
      obtain ⟨-, hq, hq'⟩ := hv c (by simp)
      rw [List.cons_append, List.cons_append, string?_eq_none hq hq', string?_eq_none hq hq']
  have hblank : space? (v ++ (rest ++ '\n' :: more)) = space? (v ++ rest) := by
    obtain ⟨c, w, rfl⟩ := List.exists_cons_of_ne_nil hs.ne_nil
    have hc := hspace c rfl
    rw [List.cons_append, List.cons_append, space?_eq_none hc, space?_eq_none hc]
  rw [← h]
  refine Offer.lexeme?_congr ((hs.newline more).comment?_eq.trans hs.comment?_eq.symm) hstr ?_ hblank ?_
  · rw [← List.append_assoc, wordRun_newline]
  · rw [← List.append_assoc, takeWhile_newline (by decide)]

namespace Reader

/-- A text that is read to its end is read alike with a line end behind it. -/
theorem run_newline {r last : Reader} (h : r.run 0 u = .ok last) (more : List Char) :
    r.run 0 (u ++ '\n' :: more) = last.run 0 ('\n' :: more) := by
  -- The induction is on the length, since a step takes a whole lexeme.
  induction hn : u.length using Nat.strong_induction_on generalizing u r with
  | _ n ih =>
    subst hn
    cases u with
    | nil =>
      cases h
      rfl
    | cons c u =>
      obtain ⟨l, rest, next, hlex, hcs, hf, ha, hrun⟩ := run_eq_ok h
      have hpos := List.length_pos_iff.mpr hf.ne_nil
      rw [hcs] at hlex ih ⊢
      have hrest := ih rest.length (by rw [List.length_append]; omega) hrun rfl
      rw [List.append_assoc]
      cases hf with
      | space hne hv =>
        cases ha
        exact (run_spaces hv).trans hrest
      | comment hc =>
        cases ha
        exact (run_comment (comment?_append hc)).trans hrest
      | @token k v hk hcom hstrip =>
        rcases Offer.lexeme?_cases hlex with ⟨w, -, hw⟩ | ⟨w, -, hw⟩ | ⟨k', w, rest', hw, hsplit, -, hsolid⟩
        · cases hw
        · cases hw
        · cases hw
          obtain rfl := List.append_cancel_left hsplit
          have hlex' := lexeme?_newline hlex hsolid hk.head_isSpace more
          exact (run_lexeme (l := .token k v) hk.ne_nil hlex' ha).trans hrest

end Reader

variable {n m : Nat} {pre : List Tree} {f f' p : Frame} {below below' : List Frame} {t : Token}

/-- The node with its children moved, behind the trees `pre`. -/
def Frame.moved (n m : Nat) (pre : List Tree) (f : Frame) : Frame :=
  { f with children := f.children.map (Tree.moved n m) ++ pre }

lemma Frame.moved_push (c : Tree) : (f.push c).moved n m pre = (f.moved n m pre).push (c.moved n m) := by
  simp [push, moved]

lemma Frame.moved_tree : (f.moved n m []).tree = f.tree.moved n m := by
  simp [tree, moved]

/-- The open nodes of the second pair are those of the first, moved, with the statements `pre` before the
others. -/
inductive Over (n m : Nat) (pre : List Tree) : Frame → List Frame → Frame → List Frame → Prop
  | root (f : Frame) : Over n m pre f [] (f.moved n m pre) []
  | inner (f : Frame) {p p' : Frame} {ps ps' : List Frame} : Over n m pre p ps p' ps' →
      Over n m pre f (p :: ps) (f.moved n m []) (p' :: ps')

namespace Over

lemma rule_eq (h : Over n m pre f below f' below') : f'.rule = f.rule := by
  cases h with
  | root => rfl
  | inner => rfl

lemma rest_eq (h : Over n m pre f below f' below') : f'.rest = f.rest := by
  cases h with
  | root => rfl
  | inner => rfl

lemma offer_eq (h : Over n m pre f below f' below') : f'.offer = f.offer := by
  rw [f'.offer_eq, f.offer_eq, h.rule_eq, h.rest_eq]

lemma push (h : Over n m pre f below f' below') (c : Tree) :
    Over n m pre (f.push c) below (f'.push (c.moved n m)) below' := by
  cases h with
  | root =>
    rw [← Frame.moved_push]
    exact .root _
  | inner _ h =>
    rw [← Frame.moved_push]
    exact .inner _ h

/-- Nodes are entered alike. -/
lemma enter (h : Over n m pre f below f' below') (depth : Nat) :
    (f.enter? t depth = none ∧ f'.enter? (t.moved n m) depth = none) ∨
      ∃ g gs g' gs', f.enter? t depth = some (g :: gs) ∧ f'.enter? (t.moved n m) depth = some (g' :: gs') ∧
        Over n m pre g (gs ++ below) g' (gs' ++ below') := by
  have hkind : (t.moved n m).kind = t.kind := rfl
  induction depth generalizing f f' below below' with
  | zero =>
    unfold Frame.enter?
    rw [h.rest_eq, hkind]
    cases f.rest.choose t.kind with
    | none => exact Or.inl ⟨rfl, rfl⟩
    | some q =>
      cases q with
      | token k => exact Or.inr ⟨_, [], _, [], rfl, rfl, h.push (.leaf t)⟩
      | rule r => exact Or.inl ⟨rfl, rfl⟩
  | succ depth ih =>
    unfold Frame.enter?
    rw [h.rest_eq, hkind]
    cases f.rest.choose t.kind with
    | none => exact Or.inl ⟨rfl, rfl⟩
    | some q =>
      cases q with
      | token k => exact Or.inr ⟨_, [], _, [], rfl, rfl, h.push (.leaf t)⟩
      | rule r =>
        have hopen : Over n m pre (opening r) (f :: below) (opening r) (f' :: below') := .inner _ h
        rcases ih hopen with ⟨hnone, hnone'⟩ | ⟨g, gs, g', gs', hsome, hsome', hover⟩
        · exact Or.inl ⟨by simp [hnone], by simp [hnone']⟩
        · refine Or.inr ⟨g, gs ++ [f], g', gs' ++ [f'], by simp [hsome], by simp [hsome'], ?_⟩
          simpa using hover

/-- Tokens are shifted alike. -/
lemma shift {s : Stack} (h : Over n m pre f below f' below') (hs : Stack.shiftInto t f below = some s) :
    ∃ s', Stack.shiftInto (t.moved n m) f' below' = some s' ∧
      Over n m pre s.top s.below s'.top s'.below := by
  induction below generalizing f f' below' with
  | nil =>
    rw [Stack.shiftInto.eq_def] at hs ⊢
    rcases h.enter (t := t) Frame.maxDepth with ⟨hnone, hnone'⟩ | ⟨g, gs, g', gs', hsome, hsome', hover⟩
    · simp [hnone] at hs
    · simp only [hsome, Option.some.injEq] at hs
      subst hs
      exact ⟨⟨g', gs' ++ below'⟩, by simp [hsome'], hover⟩
  | cons p ps ih =>
    rw [Stack.shiftInto.eq_def] at hs ⊢
    rcases h.enter (t := t) Frame.maxDepth with ⟨hnone, hnone'⟩ | ⟨g, gs, g', gs', hsome, hsome', hover⟩
    · cases h with
      | inner _ hp =>
        simp only [hnone] at hs
        split_ifs at hs with hn
        have hn' : (f.moved n m []).rest.nullable = true := hn
        simp only [hnone', hn', if_true, Frame.moved_tree]
        exact ih (hp.push f.tree) hs
    · simp only [hsome, Option.some.injEq] at hs
      subst hs
      exact ⟨⟨g', gs' ++ below'⟩, by simp [hsome'], hover⟩

/-- The closed file has the statements `pre` before the others. -/
lemma close {items : List Tree} (h : Over n m pre f below f' below')
    (hc : Stack.closeInto f below = some (.node .file items)) :
    Stack.closeInto f' below' = some (.node .file (pre.reverse ++ items.map (Tree.moved n m))) := by
  induction below generalizing f f' below' with
  | nil =>
    have htree := Stack.closeInto_nil hc
    have hn := Stack.closeInto_nullable hc
    cases h with
    | root =>
      have hn' : (f.moved n m pre).rest.nullable = true := hn
      simp only [Frame.tree, Tree.node.injEq] at htree
      rw [Stack.closeInto, if_pos hn', htree.2]
      simp [Frame.tree, Frame.moved, ← htree.1]
  | cons p ps ih =>
    have hn := Stack.closeInto_nullable hc
    cases h with
    | inner _ hp =>
      have hn' : (f.moved n m []).rest.nullable = true := hn
      rw [Stack.closeInto, if_pos hn', Frame.moved_tree]
      exact ih (hp.push f.tree) (Stack.closeInto_cons hc)

end Over

/-- The second reader reads the same text at another place, behind the statements `pre` and the comments
`kept`. -/
structure Trails (n m : Nat) (pre : List Tree) (kept : List Comment) (r r' : Reader) : Prop where
  position : r'.position = r.position.moved n m
  stack : Over n m pre r.stack.top r.stack.below r'.stack.top r'.stack.below
  comments : r'.comments = r.comments.map (Comment.moved n m) ++ kept

lemma Trails.accept {kept : List Comment} {r r' next : Reader} {l : Lexeme} (h : Trails n m pre kept r r')
    (ha : r.accept l = .ok next) : ∃ next', r'.accept l = .ok next' ∧ Trails n m pre kept next next' := by
  have hafter : r'.position.after l.text = (r.position.after l.text).moved n m := by
    rw [h.position, Position.after_moved]
  cases l with
  | space w =>
    cases ha
    exact ⟨_, rfl, hafter, h.stack, h.comments⟩
  | comment w =>
    cases ha
    refine ⟨_, rfl, hafter, h.stack, ?_⟩
    rw [h.comments, h.position]
    rfl
  | token k w =>
    simp only [Reader.accept] at ha ⊢
    split at ha
    · next s hs =>
      cases ha
      obtain ⟨s', hs', hover⟩ := h.stack.shift hs
      have hshift : r'.stack.shift? ⟨k, w, r'.position⟩ = some s' := by
        rw [h.position]
        exact hs'
      rw [hshift]
      exact ⟨_, rfl, hafter, hover, h.comments⟩
    · cases ha

/-- What is read alone is read behind other statements. -/
theorem Trails.run {kept : List Comment} {r r' last : Reader} (h : Trails n m pre kept r r')
    (hr : r.run 0 u = .ok last) : ∃ last', r'.run 0 u = .ok last' ∧ Trails n m pre kept last last' := by
  induction hn : u.length using Nat.strong_induction_on generalizing u r r' with
  | _ n ih =>
    subst hn
    cases u with
    | nil =>
      cases hr
      exact ⟨r', rfl, h⟩
    | cons c u =>
      obtain ⟨l, rest, next, hlex, hcs, hf, ha, hrun⟩ := Reader.run_eq_ok hr
      have hpos := List.length_pos_iff.mpr hf.ne_nil
      rw [hcs] at hlex ih ⊢
      obtain ⟨next', ha', hnext⟩ := h.accept ha
      rw [← h.stack.offer_eq] at hlex
      rw [Reader.run_lexeme hf.ne_nil hlex ha']
      exact ih rest.length (by rw [List.length_append]; omega) hnext hrun rfl

end Stubsmith.Proto
