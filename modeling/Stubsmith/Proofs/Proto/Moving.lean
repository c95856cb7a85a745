import Stubsmith.Proofs.Proto.Soundness

/-!
# Trees at another place

Moving a tree and its comments by some characters and lines moves the lines of its syntax tree and changes
nothing else. Which comments are woven into a tree depends on those alone that stand between its ends.
-/
namespace Stubsmith.Proto

/-- The place `n` characters and `m` lines further on, in the same column. -/
def Position.moved (n m : Nat) (p : Position) : Position := ⟨p.offset + n, p.line + m, p.column⟩

def Token.moved (n m : Nat) (t : Token) : Token := { t with position := t.position.moved n m }

def Comment.moved (n m : Nat) (c : Comment) : Comment := { c with position := c.position.moved n m }

mutual

/-- The tree with all its tokens moved. -/
def Tree.moved (n m : Nat) : Tree → Tree
  | .leaf t => .leaf (t.moved n m)
  | .node r cs => .node r (movedAll n m cs)

def Tree.movedAll (n m : Nat) : List Tree → List Tree
  | [] => []
  | t :: ts => t.moved n m :: movedAll n m ts

end

mutual

/-- The tree with its lines moved. -/
def Node.lowered (m : Nat) : Node → Node
  | mk k v l cs => mk k v (l.map (· + (m : Int))) (loweredAll m cs)

def Node.loweredAll (m : Nat) : List Node → List Node
  | [] => []
  | n :: ns => n.lowered m :: loweredAll m ns

end

variable {n m : Nat}

@[simp] lemma Comment.offset_moved (c : Comment) : (c.moved n m).position.offset = c.position.offset + n := rfl

@[simp] lemma Comment.line_moved (c : Comment) : (c.moved n m).position.line = c.position.line + m := rfl

@[simp] theorem Node.loweredAll_eq (ns : List Node) : Node.loweredAll m ns = ns.map (Node.lowered m) := by
  induction ns with
  | nil => rfl
  | cons n ns ih => rw [loweredAll, ih, List.map_cons]

lemma Position.after_moved (p : Position) (v : List Char) : (p.moved n m).after v = (p.after v).moved n m := by
  unfold after
  induction v generalizing p with
  | nil => rfl
  | cons c v ih =>
    have hnext : (p.moved n m).next c = (p.next c).moved n m := by
      unfold next moved
      split_ifs
      · simp only [mk.injEq, and_true]
        omega
      · simp only [mk.injEq, and_true]
        omega
    rw [List.foldl_cons, List.foldl_cons, hnext, ih]

namespace Tree

variable {t : Tree} {cs : List Tree} {r : Rule}

@[simp] theorem movedAll_eq (ts : List Tree) : movedAll n m ts = ts.map (moved n m) := by
  induction ts with
  | nil => rfl
  | cons t ts ih => rw [movedAll, ih, List.map_cons]

@[simp] lemma moved_node : (node r cs).moved n m = node r (cs.map (moved n m)) := by
  rw [moved, movedAll_eq]

@[simp] lemma piece_moved : (t.moved n m).piece = t.piece := by
  cases t with
  | leaf k => rfl
  | node r cs => rfl

@[simp] lemma tokens_moved : (t.moved n m).tokens = t.tokens.map (Token.moved n m) := by
  induction t using Tree.induction with
  | leaf k => rfl
  | node r cs ih =>
    rw [moved_node, tokens, tokens, tokensAll_eq, tokensAll_eq, List.flatMap_map, List.map_flatMap]
    exact List.flatMap_congr ih

lemma start_moved (h : t.tokens ≠ []) : (t.moved n m).start = t.start + n := by
  obtain ⟨k, ks, hk⟩ := List.exists_cons_of_ne_nil h
  simp [start, hk, Token.moved, Position.moved]

lemma stop_moved (h : t.tokens ≠ []) : (t.moved n m).stop = t.stop + n := by
  have hk := List.getLast?_eq_some_getLast h
  simp only [stop, tokens_moved, List.getLast?_map, hk, Option.map_some, Option.getD_some, Token.stop,
    Token.moved, Position.moved]
  omega

lemma line_moved : (t.moved n m).line = t.line.map (· + m) := by
  simp [line, Function.comp_def, Token.moved, Position.moved]

lemma lastLine_moved : (t.moved n m).lastLine = t.lastLine.map (· + m) := by
  simp [lastLine, Function.comp_def, Token.moved, Position.moved]

lemma standsAlone_moved {c : Comment} {elements : List Tree} (h : ∀ e ∈ elements, e.tokens ≠ []) :
    (c.moved n m).standsAlone (elements.map (moved n m)) = c.standsAlone elements := by
  have hany : ((elements.map (moved n m)).any fun e => decide (e.start ≤ (c.moved n m).position.offset) &&
      decide ((c.moved n m).position.offset < e.stop)) =
        elements.any fun e => decide (e.start ≤ c.position.offset) && decide (c.position.offset < e.stop) := by
    rw [List.any_map, Bool.eq_iff_iff, List.any_eq_true, List.any_eq_true]
    refine exists_congr fun e => and_congr_right fun he => ?_
    simp [start_moved (h e he), stop_moved (h e he)]
  have hbefore : ((elements.map (moved n m)).filter fun e => decide (e.stop ≤ (c.moved n m).position.offset)) =
      (elements.filter fun e => decide (e.stop ≤ c.position.offset)).map (moved n m) := by
    rw [List.filter_map]
    congr 1
    refine List.filter_congr fun e he => ?_
    simp [stop_moved (h e he)]
  unfold Comment.standsAlone
  dsimp only
  rw [hany, hbefore, List.getLast?_map]
  congr 1
  cases (elements.filter fun e => decide (e.stop ≤ c.position.offset)).getLast? with
  | none => rfl
  | some e =>
    simp only [Option.map_some, lastLine_moved]
    cases e.lastLine with
    | none => rfl
    | some l =>
      rw [Bool.eq_iff_iff, bne_iff_ne, bne_iff_ne]
      simp

end Tree

section Service

variable {cs : List Tree} {keyword name opening closing : Tree} {body : List Tree} {comments : List Comment}

lemma IsService.moved (h : IsService cs keyword name opening body closing) :
    IsService (cs.map (Tree.moved n m)) (keyword.moved n m) (name.moved n m) (opening.moved n m)
      (body.map (Tree.moved n m)) (closing.moved n m) where
  children := by simp [h.children]
  keyword := by simp [h.keyword]
  name := by simp [h.name]
  opening := by simp [h.opening]
  body := by simpa using h.body
  closing := by simp [h.closing]

lemma bodyComments_moved (h : (Tree.node .serviceDef cs).Derives) :
    bodyComments (cs.map (Tree.moved n m)) (comments.map (Comment.moved n m)) =
      (bodyComments cs comments).map (Comment.moved n m) := by
  obtain ⟨keyword, name, opening, body, closing, hs⟩ := h.service
  have hne : ∀ c ∈ cs, c.tokens ≠ [] := fun c hc =>
    (h.split.2 c hc).tokens_ne_nil (h.child_ne_file hc)
  have hmem : ∀ c ∈ opening :: (body ++ [closing]), c ∈ cs := by
    intro c hc
    rw [hs.children]
    exact List.mem_cons_of_mem _ (List.mem_cons_of_mem _ hc)
  have hopening := hne opening (hmem _ (by simp))
  have hclosing := hne closing (hmem _ (by simp))
  have helements : ∀ e ∈ opening :: body, e.tokens ≠ [] := by
    intro e he
    apply hne e (hmem e _)
    rw [← List.cons_append]
    exact List.mem_append_left _ he
  rw [hs.bodyComments_eq, hs.moved.bodyComments_eq, List.filter_map]
  congr 1
  refine List.filter_congr fun c _ => ?_
  have halone := Tree.standsAlone_moved (n := n) (m := m) (c := c) helements
  rw [List.map_cons] at halone
  simp [halone, Tree.stop_moved hopening, Tree.start_moved hclosing]

/-- Moved comments are woven between moved trees as before. -/
lemma woven_moved {α : Type} {form : Comment → α} {f : Tree → α} {ts : List Tree} {bs : List Comment}
    (h : ∀ t ∈ ts, t.tokens ≠ []) :
    woven form f (ts.map (Tree.moved n m)) (bs.map (Comment.moved n m)) =
      woven (fun c => form (c.moved n m)) (fun t => f (t.moved n m)) ts bs := by
  induction ts generalizing bs with
  | nil => simp [woven_nil]
  | cons t ts ih =>
    rw [List.forall_mem_cons] at h
    have hbefore : (fun c : Comment => decide ((c.moved n m).position.offset < (t.moved n m).start)) =
        fun c => decide (c.position.offset < t.start) := by
      funext c
      simp [Tree.start_moved h.1]
    rw [List.map_cons, woven_cons, woven_cons, List.takeWhile_map, List.dropWhile_map]
    simp only [Function.comp_def, hbefore, List.map_map]
    rw [ih h.2]

end Service

/-- A moved tree gives the syntax tree with its lines moved. -/
theorem Tree.toNode_moved {t : Tree} {comments : List Comment} (h : t.Derives) :
    (t.moved n m).toNode (comments.map (Comment.moved n m)) = (t.toNode comments).lowered m := by
  induction t using Tree.induction with
  | leaf k => simp [moved, toNode, Token.moved, Position.moved, Node.lowered, Node.loweredAll]
  | node r cs ih =>
    obtain ⟨hm, hcs⟩ := h.split
    have hline : ((node r cs).moved n m).line.map Int.ofNat =
        ((node r cs).line.map Int.ofNat).map (· + (m : Int)) := by
      rw [line_moved]
      cases (node r cs).line with
      | none => rfl
      | some l => simp
    rw [moved_node] at hline ⊢
    by_cases hr : r = .serviceDef
    · subst hr
      have hne : ∀ c ∈ cs, c.tokens ≠ [] := fun c hc => (hcs c hc).tokens_ne_nil (h.child_ne_file hc)
      rw [toNode_service, toNode_service, Node.lowered, Node.loweredAll_eq, hline, bodyComments_moved h,
        woven_moved hne, map_woven]
      congr 1
      refine woven_congr (fun b _ => ?_) fun c hc => ih c hc (hcs c hc)
      simp [Comment.node, Comment.moved, Position.moved, Node.lowered, Node.loweredAll]
    · rw [toNode_of_ne hr, toNode_of_ne hr, Node.lowered, Node.loweredAll_eq, hline, List.map_map, List.map_map]
      congr 1
      exact List.map_congr_left fun c hc => ih c hc (hcs c hc)

/-- The comment begins between the ends of the tree. -/
def Tree.spans (t : Tree) (c : Comment) : Bool :=
  t.start ≤ c.position.offset && c.position.offset < t.stop

/-- The syntax tree depends on the comments between the ends of the tree alone. -/
theorem Tree.Sound.toNode_congr {t : Tree} {comments comments' : List Comment} (h : t.Sound)
    (hc : comments.filter t.spans = comments'.filter t.spans) : t.toNode comments = t.toNode comments' := by
  induction t using Tree.induction with
  | leaf k => rfl
  | node r cs ih =>
    have hfilter : ∀ p : Comment → Bool, (∀ c, p c = true → (node r cs).spans c = true) →
        comments.filter p = comments'.filter p := by
      intro p hp
      have hsub : ∀ bs : List Comment, bs.filter p = (bs.filter (node r cs).spans).filter p := by
        intro bs
        rw [List.filter_filter]
        refine List.filter_congr fun c _ => ?_
        cases hpc : p c with
        | false => rfl
        | true => simp [hp c hpc]
      rw [hsub, hc, ← hsub]
    have hcs : ∀ c ∈ cs, c.toNode comments = c.toNode comments' := by
      intro c hmem
      apply ih c hmem (h.child hmem)
      apply hfilter
      intro b hb
      have hwithin := h.child_within hmem
      simp only [spans, Bool.and_eq_true, decide_eq_true_eq] at hb ⊢
      omega
    by_cases hr : r = .serviceDef
    · subst hr
      obtain ⟨keyword, name, opening, body, closing, hs⟩ := h.derives.service
      have hopening := h.child_within (c := opening) (by simp [hs.children])
      have hclosing := h.child_within (c := closing) (by simp [hs.children])
      have hfirst := h.child_start_lt_stop (c := opening) (by simp [hs.children])
      have hlast := h.child_start_lt_stop (c := closing) (by simp [hs.children])
      have hbody : bodyComments cs comments = bodyComments cs comments' := by
        rw [hs.bodyComments_eq, hs.bodyComments_eq]
        apply hfilter
        intro b hb
        simp only [spans, Bool.and_eq_true, decide_eq_true_eq] at hb ⊢
        omega
      rw [toNode_service, toNode_service, hbody]
      congr 1
      exact woven_congr (fun _ _ => rfl) hcs
    · rw [toNode_of_ne hr, toNode_of_ne hr]
      congr 1
      exact List.map_congr_left hcs

section Apart

variable {t : Tree} {early late : List Comment}

/-- Comments behind a tree do not count. -/
lemma Tree.Sound.toNode_early (h : t.Sound) (hlate : ∀ c ∈ late, t.stop ≤ c.position.offset) :
    t.toNode (early ++ late) = t.toNode early := by
  apply h.toNode_congr
  have hnone : late.filter t.spans = [] := by
    rw [List.filter_eq_nil_iff]
    intro c hc
    have hle := hlate c hc
    simp only [spans, Bool.and_eq_true, decide_eq_true_eq]
    omega
  rw [List.filter_append, hnone, List.append_nil]

/-- Comments before a tree do not count. -/
lemma Tree.Sound.toNode_late (h : t.Sound) (hearly : ∀ c ∈ early, c.position.offset < t.start) :
    t.toNode (early ++ late) = t.toNode late := by
  apply h.toNode_congr
  have hnone : early.filter t.spans = [] := by
    rw [List.filter_eq_nil_iff]
    intro c hc
    have hlt := hearly c hc
    simp only [spans, Bool.and_eq_true, decide_eq_true_eq]
    omega
  rw [List.filter_append, hnone, List.nil_append]

end Apart

end Stubsmith.Proto
