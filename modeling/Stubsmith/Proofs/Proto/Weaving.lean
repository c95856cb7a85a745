import Mathlib.Data.List.Flatten
import Mathlib.Data.List.TakeWhile
import Stubsmith.Proofs.Proto.Building

/-!
# Comments woven between trees

The trees of a service stand one behind the other, and a comment of its body stands inside none of
them. Weaving puts each comment where it stands in the text: the marks of the woven tree, its tokens
and the comments it has received, are in the order of their offsets.
-/
namespace Stubsmith.Proto

namespace Tree

/-- A property of all trees holds if every node has it whose children have it. -/
@[elab_as_elim]
theorem induction {motive : Tree → Prop} (leaf : ∀ t, motive (.leaf t))
    (node : ∀ r cs, (∀ c ∈ cs, motive c) → motive (.node r cs)) (t : Tree) : motive t :=
  @Tree.rec motive (fun cs => ∀ c ∈ cs, motive c) leaf node (fun _ h => absurd h List.not_mem_nil)
    (fun _ _ ht hts => List.forall_mem_cons.mpr ⟨ht, hts⟩) t

/-- The tree is a derivation, its leaves are lexemes, and each token ends before the next begins. -/
structure Sound (t : Tree) : Prop where
  derives : t.Derives
  spelled : ∀ k ∈ t.tokens, k.kind.Spells k.text
  ordered : t.tokens.Pairwise fun a b => a.stop ≤ b.position.offset

lemma Derives.split {r : Rule} {cs : List Tree} (h : (Tree.node r cs).Derives) :
    r.shape.Matches (cs.map piece) ∧ ∀ c ∈ cs, c.Derives := by
  cases h with
  | node _ _ hm hall => exact ⟨hm, derivesAll_iff.mp hall⟩

lemma mem_tokens_of_child {r : Rule} {cs : List Tree} {c : Tree} {k : Token} (hc : c ∈ cs)
    (hk : k ∈ c.tokens) : k ∈ (node r cs).tokens := by
  rw [tokens, tokensAll_eq]
  exact List.mem_flatMap_of_mem hc hk

lemma Sound.child {r : Rule} {cs : List Tree} {c : Tree} (h : (node r cs).Sound) (hc : c ∈ cs) :
    c.Sound where
  derives := h.derives.split.2 c hc
  spelled := fun k hk => h.spelled k (mem_tokens_of_child hc hk)
  ordered := by
    have ho := h.ordered
    rw [tokens, tokensAll_eq, List.pairwise_flatMap] at ho
    exact ho.1 c hc

/-- No child is a file. -/
lemma Derives.child_ne_file {r : Rule} {cs : List Tree} {c : Tree} (h : (Tree.node r cs).Derives)
    (hc : c ∈ cs) : c.piece ≠ .rule .file := by
  have hpieces : ∀ r ∈ Rule.all, Piece.rule .file ∉ r.shape.pieces := by decide +kernel
  intro he
  have hmem : Piece.rule .file ∈ cs.map piece := he ▸ List.mem_map_of_mem hc
  exact hpieces r (Rule.mem_all r) (Shape.mem_pieces h.split.1 hmem)

/-- Every node but an empty file has a token. -/
lemma Derives.tokens_ne_nil {t : Tree} (h : t.Derives) (hp : t.piece ≠ .rule .file) :
    t.tokens ≠ [] := by
  have hshapes : ∀ r ∈ Rule.all, r ≠ .file → r.shape.nullable = false := by decide +kernel
  induction t using Tree.induction with
  | leaf k => simp [tokens]
  | node r cs ih =>
    have hr : r ≠ .file := fun he => hp (congrArg Piece.rule he)
    obtain ⟨hm, hcs⟩ := h.split
    cases cs with
    | nil =>
      rw [List.map_nil, Shape.matches_nil, hshapes r (Rule.mem_all r) hr] at hm
      cases hm
    | cons c cs =>
      have hne := ih c (by simp) (hcs c (by simp)) (h.child_ne_file (by simp))
      simp [tokens, hne]

lemma exists_start {t : Tree} (h : t.tokens ≠ []) : ∃ k ∈ t.tokens, t.start = k.position.offset := by
  obtain ⟨k, ks, hk⟩ := List.exists_cons_of_ne_nil h
  exact ⟨k, by simp [hk], by simp [start, hk]⟩

lemma exists_stop {t : Tree} (h : t.tokens ≠ []) : ∃ k ∈ t.tokens, t.stop = k.stop := by
  have hk := List.getLast?_eq_some_getLast h
  exact ⟨t.tokens.getLast h, List.getLast_mem h, by simp [stop, hk]⟩

/-- A token of a tree stands between the ends of the tree. -/
lemma Sound.token_within {t : Tree} {k : Token} (h : t.Sound) (hk : k ∈ t.tokens) :
    t.start ≤ k.position.offset ∧ k.stop ≤ t.stop := by
  have ho := h.ordered
  constructor
  · obtain ⟨a, as, ha⟩ := List.exists_cons_of_ne_nil (List.ne_nil_of_mem hk)
    have hs : t.start = a.position.offset := by simp [start, ha]
    rw [ha] at hk ho
    rcases List.mem_cons.mp hk with rfl | hk
    · exact hs.le
    · have hle := (List.pairwise_cons.mp ho).1 k hk
      unfold Token.stop at hle
      omega
  · have hne := List.ne_nil_of_mem hk
    have hs : t.stop = (t.tokens.getLast hne).stop := by
      simp [stop, List.getLast?_eq_some_getLast hne]
    rw [← List.dropLast_append_getLast hne] at hk ho
    rw [List.pairwise_append] at ho
    rcases List.mem_append.mp hk with hk | hk
    · have hle := ho.2.2 k hk _ (List.mem_singleton_self _)
      unfold Token.stop at hs hle ⊢
      omega
    · rw [List.mem_singleton.mp hk, hs]

lemma Sound.start_lt_stop {t : Tree} (h : t.Sound) (hne : t.tokens ≠ []) : t.start < t.stop := by
  obtain ⟨k, hk, hs⟩ := exists_start hne
  have hpos := List.length_pos_iff.mpr (h.spelled k hk).ne_nil
  have hle := (h.token_within hk).2
  unfold Token.stop at hle
  omega

/-- The children of a node stand one behind the other. -/
lemma Sound.children_ordered {r : Rule} {cs : List Tree} (h : (node r cs).Sound) :
    cs.Pairwise fun a b => a.stop ≤ b.start := by
  have hne : ∀ c ∈ cs, c.tokens ≠ [] := fun c hc =>
    (h.child hc).derives.tokens_ne_nil (h.derives.child_ne_file hc)
  have ho := h.ordered
  rw [tokens, tokensAll_eq, List.pairwise_flatMap] at ho
  refine ho.2.imp_of_mem fun {a b} ha hb hab => ?_
  obtain ⟨k, hk, hstop⟩ := exists_stop (hne a ha)
  obtain ⟨l, hl, hstart⟩ := exists_start (hne b hb)
  rw [hstop, hstart]
  exact hab k hk l hl

lemma Sound.child_start_lt_stop {r : Rule} {cs : List Tree} {c : Tree} (h : (node r cs).Sound)
    (hc : c ∈ cs) : c.start < c.stop :=
  (h.child hc).start_lt_stop ((h.child hc).derives.tokens_ne_nil (h.derives.child_ne_file hc))

lemma Sound.child_within {r : Rule} {cs : List Tree} {c : Tree} (h : (node r cs).Sound) (hc : c ∈ cs) :
    (node r cs).start ≤ c.start ∧ c.stop ≤ (node r cs).stop := by
  have hne := (h.child hc).derives.tokens_ne_nil (h.derives.child_ne_file hc)
  have hmem : ∀ k ∈ c.tokens, k ∈ (node r cs).tokens := fun k hk => mem_tokens_of_child hc hk
  obtain ⟨k, hk, hstart⟩ := exists_start hne
  obtain ⟨l, hl, hstop⟩ := exists_stop hne
  rw [hstart, hstop]
  exact ⟨(h.token_within (hmem k hk)).1, (h.token_within (hmem l hl)).2⟩

end Tree

section Woven

variable {α β : Type} {form form' : Comment → α} {f f' : Tree → α} {t : Tree} {ts : List Tree}
variable {bs : List Comment}

/-- The trees in some form, with the comments woven between them. -/
def woven (form : Comment → α) (f : Tree → α) (ts : List Tree) (bs : List Comment) : List α :=
  weave form ((ts.map Tree.start).zip (ts.map f)) bs

lemma woven_nil : woven form f [] bs = bs.map form := rfl

lemma woven_cons : woven form f (t :: ts) bs =
    (bs.takeWhile (·.position.offset < t.start)).map form ++
      f t :: woven form f ts (bs.dropWhile (·.position.offset < t.start)) := rfl

lemma map_woven (g : α → β) :
    (woven form f ts bs).map g = woven (fun c => g (form c)) (fun t => g (f t)) ts bs := by
  induction ts generalizing bs with
  | nil => simp [woven_nil]
  | cons t ts ih => simp [woven_cons, ih]

lemma woven_congr (hform : ∀ b ∈ bs, form b = form' b) (hf : ∀ t ∈ ts, f t = f' t) :
    woven form f ts bs = woven form' f' ts bs := by
  induction ts generalizing bs with
  | nil => simpa [woven_nil] using hform
  | cons t ts ih =>
    rw [woven_cons, woven_cons, hf t (by simp),
      ih (fun b hb => hform b ((List.dropWhile_sublist _).mem hb)) fun u hu => hf u (by simp [hu]),
      List.map_congr_left fun b hb => hform b ((List.takeWhile_sublist _).mem hb)]

lemma mem_woven {a : α} :
    a ∈ woven form f ts bs ↔ (∃ t ∈ ts, f t = a) ∨ ∃ b ∈ bs, form b = a := by
  induction ts generalizing bs with
  | nil => simp [woven_nil]
  | cons t ts ih =>
    have hsplit : ∀ b, b ∈ bs ↔ b ∈ bs.takeWhile (·.position.offset < t.start) ∨
        b ∈ bs.dropWhile (·.position.offset < t.start) := by
      intro b
      rw [← List.mem_append, List.takeWhile_append_dropWhile]
    simp only [woven_cons, List.mem_append, List.mem_map, List.mem_cons, ih, hsplit, or_and_right,
      exists_or, exists_eq_left, @eq_comm _ a (f t), or_assoc, or_left_comm]

/-- A list made of the elements one by one does not see comments that give nothing. -/
lemma flatMap_woven {g : α → List β} (h : ∀ b ∈ bs, g (form b) = []) :
    (woven form f ts bs).flatMap g = ts.flatMap fun t => g (f t) := by
  induction ts generalizing bs with
  | nil => simpa [woven_nil] using h
  | cons t ts ih =>
    have htake : ((bs.takeWhile (·.position.offset < t.start)).map form).flatMap g = [] := by
      simp only [List.flatMap_eq_nil_iff, List.mem_map]
      rintro _ ⟨b, hb, rfl⟩
      exact h b ((List.takeWhile_sublist _).mem hb)
    rw [woven_cons, List.flatMap_append, htake, List.nil_append, List.flatMap_cons,
      ih fun b hb => h b ((List.dropWhile_sublist _).mem hb), List.flatMap_cons]

/-- A tree that begins before all comments comes first. -/
lemma woven_cons_of_le (h : ∀ b ∈ bs, t.start ≤ b.position.offset) :
    woven form f (t :: ts) bs = f t :: woven form f ts bs := by
  have htake : bs.takeWhile (·.position.offset < t.start) = [] := by
    rw [List.takeWhile_eq_nil_iff]
    intro hpos
    have hle := h _ (List.getElem_mem hpos)
    simpa using hle
  have hdrop : bs.dropWhile (·.position.offset < t.start) = bs := by
    have hsplit := @List.takeWhile_append_dropWhile _ (·.position.offset < t.start) bs
    rwa [htake] at hsplit
  rw [woven_cons, htake, hdrop]
  rfl

/-- A tree that begins behind all comments comes last. -/
lemma woven_concat_of_lt (h : ∀ b ∈ bs, b.position.offset < t.start) :
    woven form f (ts ++ [t]) bs = woven form f ts bs ++ [f t] := by
  induction ts generalizing bs with
  | nil =>
    have htake : bs.takeWhile (·.position.offset < t.start) = bs := by
      rw [List.takeWhile_eq_self_iff]
      simpa using h
    have hdrop : bs.dropWhile (·.position.offset < t.start) = [] := by
      rw [List.dropWhile_eq_nil_iff]
      simpa using h
    rw [List.nil_append, woven_cons, htake, hdrop, woven_nil, woven_nil]
    rfl
  | cons u ts ih =>
    rw [List.cons_append, woven_cons, woven_cons,
      ih fun b hb => h b ((List.dropWhile_sublist _).mem hb), List.append_assoc, List.cons_append]

lemma le_of_mem_dropWhile {n : Nat} {b : Comment}
    (hbs : bs.Pairwise fun a b => a.position.offset < b.position.offset)
    (hb : b ∈ bs.dropWhile (·.position.offset < n)) : n ≤ b.position.offset := by
  induction bs with
  | nil => cases hb
  | cons c bs ih =>
    rw [List.pairwise_cons] at hbs
    by_cases hc : c.position.offset < n
    · rw [List.dropWhile_cons_of_pos (by simpa using hc)] at hb
      exact ih hbs.2 hb
    · rw [List.dropWhile_cons_of_neg (by simpa using hc)] at hb
      rcases List.mem_cons.mp hb with rfl | hb
      · omega
      · have hlt := hbs.1 b hb
        omega

/-- A relation holds along the woven list if it holds among the trees, among the comments, and between
a comment and a tree as they stand. -/
lemma woven_pairwise {S : α → α → Prop}
    (hts : ts.Pairwise fun a b => a.start ≤ b.start ∧ S (f a) (f b))
    (hbs : bs.Pairwise fun a b => a.position.offset < b.position.offset ∧ S (form a) (form b))
    (hbefore : ∀ t ∈ ts, ∀ b ∈ bs, b.position.offset < t.start → S (form b) (f t))
    (hbehind : ∀ t ∈ ts, ∀ b ∈ bs, t.start ≤ b.position.offset → S (f t) (form b)) :
    (woven form f ts bs).Pairwise S := by
  induction ts generalizing bs with
  | nil => exact List.pairwise_map.mpr (hbs.imp And.right)
  | cons t ts ih =>
    rw [List.pairwise_cons] at hts
    have htake := List.takeWhile_sublist (l := bs) (·.position.offset < t.start)
    have hdrop := List.dropWhile_sublist (l := bs) (·.position.offset < t.start)
    have hfront : ∀ b ∈ bs.takeWhile (·.position.offset < t.start), b.position.offset < t.start := by
      intro b hb
      simpa using List.mem_takeWhile_imp hb
    have hback : ∀ b ∈ bs.dropWhile (·.position.offset < t.start), t.start ≤ b.position.offset :=
      fun b hb => le_of_mem_dropWhile (hbs.imp And.left) hb
    have hcross : ∀ a ∈ bs.takeWhile (·.position.offset < t.start),
        ∀ b ∈ bs.dropWhile (·.position.offset < t.start), S (form a) (form b) := by
      intro a ha b hb
      rw [← @List.takeWhile_append_dropWhile _ (·.position.offset < t.start) bs,
        List.pairwise_append] at hbs
      exact (hbs.2.2 a ha b hb).2
    have hrest := ih hts.2 (hbs.sublist hdrop)
      (fun u hu b hb => hbefore u (by simp [hu]) b (hdrop.mem hb))
      (fun u hu b hb => hbehind u (by simp [hu]) b (hdrop.mem hb))
    rw [woven_cons, List.pairwise_append, List.pairwise_cons]
    refine ⟨List.pairwise_map.mpr ((hbs.sublist htake).imp And.right), ⟨?_, hrest⟩, ?_⟩
    · intro y hy
      rcases mem_woven.mp hy with ⟨u, hu, rfl⟩ | ⟨b, hb, rfl⟩
      · exact (hts.1 u hu).2
      · exact hbehind t (by simp) b (hdrop.mem hb) (hback b hb)
    · intro x hx y hy
      obtain ⟨a, ha, rfl⟩ := List.mem_map.mp hx
      rcases List.mem_cons.mp hy with rfl | hy
      · exact hbefore t (by simp) a (htake.mem ha) (hfront a ha)
      · rcases mem_woven.mp hy with ⟨u, hu, rfl⟩ | ⟨b, hb, rfl⟩
        · have hle := (hts.1 u hu).1
          have hlt := hfront a ha
          exact hbefore u (by simp [hu]) a (htake.mem ha) (by omega)
        · exact hcross a ha b hb

end Woven

/-- The children of a service: the keyword, the name, the opening brace, the elements of the body and
the closing brace. -/
structure IsService (cs : List Tree) (keyword name opening : Tree) (body : List Tree) (closing : Tree) :
    Prop where
  children : cs = keyword :: name :: opening :: (body ++ [closing])
  keyword : keyword.piece = .token (.keyword .kwService)
  name : name.piece = .rule .serviceName
  opening : opening.piece = .token .openBrace
  body : ∀ e ∈ body, e.piece ∈ [.rule .method, .rule .optionDecl, .token .semicolon]
  closing : closing.piece = .token .closeBrace

lemma Tree.Derives.service {cs : List Tree} (h : (Tree.node .serviceDef cs).Derives) :
    ∃ keyword name opening body closing, IsService cs keyword name opening body closing := by
  have hm := h.split.1
  simp only [Rule.shape, Shape.sequence, Shape.keyword, Shape.rule, Shape.token, Shape.matches_seq,
    Shape.matches_piece] at hm
  obtain ⟨_, _, hcs, rfl, _, _, rfl, rfl, _, _, rfl, rfl, ps, _, rfl, hps, rfl⟩ := hm
  simp only [List.singleton_append] at hcs
  obtain ⟨keyword, cs, rfl, hkeyword, hcs⟩ := List.map_eq_cons_iff.mp hcs
  obtain ⟨name, cs, rfl, hname, hcs⟩ := List.map_eq_cons_iff.mp hcs
  obtain ⟨opening, cs, rfl, hopening, hcs⟩ := List.map_eq_cons_iff.mp hcs
  obtain ⟨body, cs, rfl, hbody, hcs⟩ := List.map_eq_append_iff.mp hcs
  obtain ⟨closing, rfl, hclosing⟩ := List.map_eq_singleton_iff.mp hcs
  refine ⟨keyword, name, opening, body, closing, rfl, hkeyword, hname, hopening, ?_, hclosing⟩
  intro e he
  exact Shape.mem_pieces hps (hbody ▸ List.mem_map_of_mem he)

section Service

variable {cs body : List Tree} {keyword name opening closing : Tree} {comments : List Comment}
variable {b : Comment}

lemma IsService.bodyElements_eq (h : IsService cs keyword name opening body closing) :
    bodyElements cs = opening :: body := by
  unfold bodyElements
  rw [h.children, List.drop_succ_cons, List.drop_succ_cons, List.drop_zero, ← List.cons_append,
    List.dropLast_concat]

lemma IsService.bodyComments_eq (h : IsService cs keyword name opening body closing) :
    bodyComments cs comments = comments.filter fun c => opening.stop ≤ c.position.offset &&
      c.position.offset < closing.start && c.standsAlone (opening :: body) := by
  have helements := h.bodyElements_eq
  obtain rfl := h.children
  have hlast : (keyword :: name :: opening :: (body ++ [closing])).getLast? = some closing := by
    rw [← List.cons_append, ← List.cons_append, ← List.cons_append, List.getLast?_concat]
  unfold bodyComments
  rw [hlast, helements]
  rfl

lemma IsService.mem_bodyComments (h : IsService cs keyword name opening body closing)
    (hb : b ∈ bodyComments cs comments) :
    b ∈ comments ∧ opening.stop ≤ b.position.offset ∧ b.position.offset < closing.start ∧
      b.standsAlone (opening :: body) = true := by
  rw [h.bodyComments_eq] at hb
  simpa [and_assoc] using hb

lemma Comment.stop_le_of_standsAlone {elements : List Tree} {e : Tree}
    (h : b.standsAlone elements = true) (he : e ∈ elements) (hs : e.start ≤ b.position.offset) :
    e.stop ≤ b.position.offset := by
  unfold Comment.standsAlone at h
  simp only [Bool.and_eq_true, Bool.not_eq_true', List.any_eq_false, decide_eq_true_eq, not_and,
    not_lt] at h
  exact h.1 e he hs

/-- The keyword, the name and the opening brace stand one behind the other. -/
lemma IsService.head_ordered (h : IsService cs keyword name opening body closing)
    (hs : (Tree.node .serviceDef cs).Sound) :
    keyword.start < keyword.stop ∧ keyword.stop ≤ opening.start ∧ name.start < name.stop ∧
      name.stop ≤ opening.start ∧ opening.start < opening.stop := by
  have hordered := hs.children_ordered
  rw [h.children, List.pairwise_cons, List.pairwise_cons] at hordered
  exact ⟨hs.child_start_lt_stop (by simp [h.children]), hordered.1 opening (by simp),
    hs.child_start_lt_stop (by simp [h.children]), hordered.2.1 opening (by simp),
    hs.child_start_lt_stop (by simp [h.children])⟩

/-- A comment of the body of a service stands inside no child of the service. -/
lemma IsService.outside (h : IsService cs keyword name opening body closing)
    (hs : (Tree.node .serviceDef cs).Sound) (hb : b ∈ bodyComments cs comments) :
    ∀ t ∈ cs, t.start ≤ b.position.offset → t.stop ≤ b.position.offset := by
  obtain ⟨-, hle, hlt, halone⟩ := h.mem_bodyComments hb
  have hhead := h.head_ordered hs
  intro t ht hstart
  rw [h.children, List.mem_cons, List.mem_cons, ← List.cons_append, List.mem_append,
    List.mem_singleton] at ht
  rcases ht with rfl | rfl | ht | rfl
  · omega
  · omega
  · exact Comment.stop_le_of_standsAlone halone ht hstart
  · omega

/-- Weaving leaves both ends of a service as they are. -/
lemma IsService.woven_eq {α : Type} {form : Comment → α} {f : Tree → α}
    (h : IsService cs keyword name opening body closing) (hs : (Tree.node .serviceDef cs).Sound) :
    woven form f cs (bodyComments cs comments) =
      f keyword :: f name :: f opening :: (woven form f body (bodyComments cs comments) ++ [f closing]) := by
  have hhead := h.head_ordered hs
  have hbehind : ∀ b ∈ bodyComments cs comments, opening.stop ≤ b.position.offset := fun b hb =>
    (h.mem_bodyComments hb).2.1
  have hbefore : ∀ b ∈ bodyComments cs comments, b.position.offset < closing.start := fun b hb =>
    (h.mem_bodyComments hb).2.2.1
  generalize bodyComments cs comments = bs at hbehind hbefore
  rw [h.children, woven_cons_of_le, woven_cons_of_le, woven_cons_of_le, woven_concat_of_lt hbefore]
  · intro b hb
    have hle := hbehind b hb
    omega
  · intro b hb
    have hle := hbehind b hb
    omega
  · intro b hb
    have hle := hbehind b hb
    omega

end Service

/-- The leaf that stands for a mark. -/
def Mark.node : Mark → Node
  | token t => .mk t.kind.name (Text.points t.text) (some t.position.line) []
  | comment c => c.node

namespace Tree

mutual

/-- The tokens of a tree and the comments woven into it, from left to right. -/
def marks (comments : List Comment) : Tree → List Mark
  | leaf t => [.token t]
  | node r cs =>
    let each := marksEach comments cs
    (if r = .serviceDef then
      weave (fun c => [.comment c]) ((cs.map start).zip each) (bodyComments cs comments)
    else each).flatten

def marksEach (comments : List Comment) : List Tree → List (List Mark)
  | [] => []
  | t :: ts => t.marks comments :: marksEach comments ts

end

variable {comments : List Comment} {t : Tree} {cs : List Tree} {r : Rule}

@[simp] theorem marksEach_eq (ts : List Tree) : marksEach comments ts = ts.map (marks comments) := by
  induction ts with
  | nil => rfl
  | cons t ts ih => rw [marksEach, ih, List.map_cons]

lemma marks_service : (node .serviceDef cs).marks comments =
    (woven (fun c => [.comment c]) (marks comments) cs (bodyComments cs comments)).flatten := by
  rw [marks, if_pos rfl, marksEach_eq]
  rfl

lemma marks_node (h : r ≠ .serviceDef) :
    (node r cs).marks comments = cs.flatMap (marks comments) := by
  rw [marks, if_neg h, marksEach_eq, ← List.flatMap_def]

lemma toNode_service : (node .serviceDef cs).toNode comments =
    .mk Rule.serviceDef.name [] ((node .serviceDef cs).line.map Int.ofNat)
      (woven Comment.node (toNode comments) cs (bodyComments cs comments)) := by
  rw [toNode, if_pos rfl, toNodes_eq]
  rfl

lemma toNode_of_ne (h : r ≠ .serviceDef) : (node r cs).toNode comments =
    .mk r.name [] ((node r cs).line.map Int.ofNat) (cs.map (toNode comments)) := by
  rw [toNode, if_neg h, toNodes_eq]

lemma bodyComments_sublist : (bodyComments cs comments).Sublist comments := by
  unfold bodyComments
  split
  · exact List.filter_sublist
  · exact List.nil_sublist _

theorem tokensOf_marks : tokensOf (t.marks comments) = t.tokens := by
  induction t using Tree.induction with
  | leaf k => rfl
  | node r cs ih =>
    have hcs : (cs.flatMap fun c => tokensOf (c.marks comments)) = cs.flatMap tokens := by
      rw [List.flatMap_def, List.flatMap_def, List.map_congr_left ih]
    rw [tokens, tokensAll_eq, ← hcs]
    by_cases hr : r = .serviceDef
    · subst hr
      rw [marks_service, tokensOf, List.filterMap_flatten, ← List.flatMap_def,
        flatMap_woven fun _ _ => rfl]
      rfl
    · rw [marks_node hr, tokensOf, List.filterMap_flatMap]
      rfl

/-- The comments of a tree are among those that were given. -/
theorem mem_of_comment_mem_marks {c : Comment} (h : .comment c ∈ t.marks comments) : c ∈ comments := by
  induction t using Tree.induction with
  | leaf k => cases List.mem_singleton.mp h
  | node r cs ih =>
    by_cases hr : r = .serviceDef
    · subst hr
      rw [marks_service] at h
      obtain ⟨ms, hms, hc⟩ := List.mem_flatten.mp h
      rcases mem_woven.mp hms with ⟨d, hd, rfl⟩ | ⟨b, hb, rfl⟩
      · exact ih d hd hc
      · cases List.mem_singleton.mp hc
        exact bodyComments_sublist.mem hb
    · rw [marks_node hr] at h
      obtain ⟨d, hd, hc⟩ := List.mem_flatMap.mp h
      exact ih d hd hc

/-- The leaves of the syntax tree are the marks of the parse tree. -/
theorem leaves_toNode (hk : ∀ k ∈ t.tokens, k.text ≠ []) (hc : ∀ c ∈ comments, c.text ≠ []) :
    (t.toNode comments).leaves = (t.marks comments).map Mark.node := by
  induction t using Tree.induction with
  | leaf k => exact Node.leaves_leaf (hk k (by simp [tokens]))
  | node r cs ih =>
    have hcs : ∀ c ∈ cs, (c.toNode comments).leaves = (c.marks comments).map Mark.node := by
      intro c hmem
      refine ih c hmem fun k hk' => hk k ?_
      rw [tokens, tokensAll_eq]
      exact List.mem_flatMap_of_mem hmem hk'
    by_cases hr : r = .serviceDef
    · subst hr
      have hleaf : ∀ c ∈ bodyComments cs comments, c.node.leaves = [Mark.comment c].map Mark.node :=
        fun c hmem => Node.leaves_leaf (hc c (bodyComments_sublist.mem hmem))
      rw [toNode_service, Node.leaves_node, marks_service, List.flatMap_def, List.map_flatten,
        map_woven, map_woven, woven_congr hleaf hcs]
    · rw [toNode_of_ne hr, Node.leaves_node, marks_node hr, List.map_flatMap, List.flatMap_map,
        List.flatMap_def, List.map_congr_left hcs, List.flatMap_def]

/-- The marks of the tree stand in order, between its ends. -/
structure InOrder (comments : List Comment) (t : Tree) : Prop where
  ordered : (t.marks comments).Pairwise fun a b => a.offset < b.offset
  within : ∀ m ∈ t.marks comments, t.start ≤ m.offset ∧ m.offset < t.stop

lemma Sound.inOrder_leaf {k : Token} (h : (leaf k).Sound) : (leaf k).InOrder comments where
  ordered := by simp [marks]
  within := by
    intro m hm
    have hlt := h.start_lt_stop (by simp [tokens])
    rw [List.mem_singleton.mp hm]
    exact ⟨le_refl _, hlt⟩

lemma Sound.inOrder_node {r : Rule} {cs : List Tree} (h : (node r cs).Sound) (hr : r ≠ .serviceDef)
    (hcs : ∀ c ∈ cs, c.InOrder comments) : (node r cs).InOrder comments where
  ordered := by
    rw [marks_node hr, List.pairwise_flatMap]
    refine ⟨fun c hmem => (hcs c hmem).ordered, ?_⟩
    refine h.children_ordered.imp_of_mem fun {a b} ha hb hab m hm n hn => ?_
    have hm' := (hcs a ha).within m hm
    have hn' := (hcs b hb).within n hn
    omega
  within := by
    intro m hm
    rw [marks_node hr] at hm
    obtain ⟨c, hmem, hm⟩ := List.mem_flatMap.mp hm
    have hm' := (hcs c hmem).within m hm
    have hc' := h.child_within hmem
    omega

/-- The comments of a service stand between its braces, and so between its ends. -/
lemma Sound.bodyComment_within {cs : List Tree} {b : Comment} (h : (node .serviceDef cs).Sound)
    (hb : b ∈ bodyComments cs comments) : (node .serviceDef cs).start ≤ b.position.offset ∧
      b.position.offset < (node .serviceDef cs).stop := by
  obtain ⟨keyword, name, opening, body, closing, hservice⟩ := h.derives.service
  obtain ⟨-, hle, hlt, -⟩ := hservice.mem_bodyComments hb
  have hopen := h.child_within (c := opening) (by simp [hservice.children])
  have hclose := h.child_within (c := closing) (by simp [hservice.children])
  have hne := h.child_start_lt_stop (c := opening) (by simp [hservice.children])
  have hne' := h.child_start_lt_stop (c := closing) (by simp [hservice.children])
  omega

lemma Sound.inOrder_service {cs : List Tree} (h : (node .serviceDef cs).Sound)
    (hc : comments.Pairwise fun a b => a.position.offset < b.position.offset)
    (hcs : ∀ c ∈ cs, c.InOrder comments) : (node .serviceDef cs).InOrder comments where
  ordered := by
    obtain ⟨keyword, name, opening, body, closing, hservice⟩ := h.derives.service
    have hbs : (bodyComments cs comments).Pairwise
        fun a b => a.position.offset < b.position.offset := hc.sublist bodyComments_sublist
    have hout : ∀ b ∈ bodyComments cs comments, ∀ c ∈ cs, c.start ≤ b.position.offset →
        c.stop ≤ b.position.offset := fun b hb => hservice.outside h hb
    rw [marks_service, List.pairwise_flatten]
    refine ⟨?_, woven_pairwise ?_ ?_ ?_ ?_⟩
    · intro ms hms
      rcases mem_woven.mp hms with ⟨c, hmem, rfl⟩ | ⟨b, _, rfl⟩
      · exact (hcs c hmem).ordered
      · exact List.pairwise_singleton _ _
    · refine h.children_ordered.imp_of_mem fun {a b} ha hb hab => ⟨?_, fun m hm n hn => ?_⟩
      · have hlt := h.child_start_lt_stop ha
        omega
      · have hm' := (hcs a ha).within m hm
        have hn' := (hcs b hb).within n hn
        omega
    · refine hbs.imp fun {a b} hab => ⟨hab, fun m hm n hn => ?_⟩
      rw [List.mem_singleton.mp hm, List.mem_singleton.mp hn]
      exact hab
    · intro c hmem b _ hlt m hm n hn
      rw [List.mem_singleton.mp hm]
      exact lt_of_lt_of_le hlt ((hcs c hmem).within n hn).1
    · intro c hmem b hb hle m hm n hn
      rw [List.mem_singleton.mp hn]
      exact lt_of_lt_of_le ((hcs c hmem).within m hm).2 (hout b hb c hmem hle)
  within := by
    intro m hm
    rw [marks_service] at hm
    obtain ⟨ms, hms, hm⟩ := List.mem_flatten.mp hm
    rcases mem_woven.mp hms with ⟨c, hmem, rfl⟩ | ⟨b, hb, rfl⟩
    · have hm' := (hcs c hmem).within m hm
      have hc' := h.child_within hmem
      omega
    · rw [List.mem_singleton.mp hm]
      exact h.bodyComment_within hb

theorem Sound.inOrder (h : t.Sound)
    (hc : comments.Pairwise fun a b => a.position.offset < b.position.offset) : t.InOrder comments := by
  induction t using Tree.induction with
  | leaf k => exact h.inOrder_leaf
  | node r cs ih =>
    have hcs : ∀ c ∈ cs, c.InOrder comments := fun c hmem => ih c hmem (h.child hmem)
    by_cases hr : r = .serviceDef
    · subst hr
      exact h.inOrder_service hc hcs
    · exact h.inOrder_node hr hcs

end Tree

end Stubsmith.Proto
