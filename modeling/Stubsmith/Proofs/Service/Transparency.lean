import Stubsmith.Proofs.Proto.Blanking
import Stubsmith.Proofs.Service.Declaration

/-!
# Comments are transparent

A text and the same text with its comments blanked are accepted together. Their trees differ in the comments
alone, and so do the services that are extracted from them.
-/
namespace Stubsmith

def Method.withoutComments (m : Method) : Method := { m with comments := [] }

/-- The service with no comments on its methods. -/
def Service.withoutComments (s : Service) : Service :=
  { s with methods := s.methods.map Method.withoutComments }

namespace Service

open Proto
open Text (CodePoint)

variable {comments bs : List Comment} {cs ts : List Tree} {t : Tree} {e : Node} {ns ns' : List Node}

lemma check_pieces : ∀ r ∈ Rule.all, r ≠ .file → r ≠ .definition → ∀ p ∈ r.shape.pieces,
    p ∉ [.rule .file, .rule .definition, .rule .serviceDef] := by
  decide +kernel

/-- Comments are woven into services alone. -/
lemma toNode_of_inner (h : t.Derives) (hp : t.piece ∉ [.rule .file, .rule .definition, .rule .serviceDef]) :
    t.toNode comments = t.toNode [] := by
  induction t using Tree.induction with
  | leaf k => rfl
  | node r cs ih =>
    simp only [Tree.piece, List.mem_cons, Piece.rule.injEq, List.not_mem_nil, or_false, not_or] at hp
    obtain ⟨hm, hcs⟩ := h.split
    rw [Tree.toNode_of_ne hp.2.2, Tree.toNode_node]
    congr 1
    refine List.map_congr_left fun c hc => ih c hc (hcs c hc) ?_
    exact check_pieces r (Rule.mem_all r) hp.1 hp.2.1 _ (Shape.mem_pieces hm (List.mem_map_of_mem hc))

/-- The elements `ns'` give the methods that `ns` give, with no comments on them. -/
def Strips (ns ns' : List Node) : Prop := ∀ name waiting,
  (readElements name [] ns').1 = (readElements name waiting ns).1.map (List.map Method.withoutComments)

lemma strips_nil : Strips [] [] := fun _ _ => rfl

lemma readMethod_withoutComments (e : Node) (waiting : List (List CodePoint)) :
    readMethod e [] = (readMethod e waiting).map (Except.map Method.withoutComments) := by
  unfold readMethod describeMethod
  cases slotsFlaw e with
  | some flaw => rfl
  | none =>
    dsimp only
    split_ifs
    · rfl
    · rw [Except.map, map_map_result]
      rfl

lemma Strips.cons (he : e.hasChildren = true ∨ e.isComment = false) (h : Strips ns ns') :
    Strips (e :: ns) (e :: ns') := by
  intro name waiting
  cases hchildren : e.hasChildren with
  | false =>
    have hcomment : e.isComment = false := by simpa [hchildren] using he
    simp only [readElements, hchildren, hcomment, Bool.not_false, if_true, Bool.false_eq_true, if_false]
    exact h name waiting
  | true =>
    simp only [readElements, hchildren, Bool.not_true, Bool.false_eq_true, if_false]
    split_ifs
    · exact h name []
    · rw [readMethod_withoutComments e waiting]
      cases readMethod e waiting with
      | error flaw => exact h name []
      | ok m =>
        cases m with
        | error issues => rfl
        | ok m =>
          show (readElements name [] ns').1.map (m.withoutComments :: ·) =
            ((readElements name [] ns).1.map (m :: ·)).map (List.map Method.withoutComments)
          rw [h name [], map_map_result, map_map_result]
          rfl

lemma Strips.woven_comments (h : Strips ns ns') : Strips (bs.map Comment.node ++ ns) ns' := by
  intro name waiting
  rw [readElements_comments]
  exact h name _

/-- Comments between elements that are none make no difference but in the comments of the methods. -/
lemma strips_woven {f : Tree → Node} (hts : ∀ t ∈ ts, (f t).hasChildren = true ∨ (f t).isComment = false)
    (h : Strips ns ns') : Strips (woven Comment.node f ts bs ++ ns) (ts.map f ++ ns') := by
  induction ts generalizing bs with
  | nil =>
    rw [woven_nil]
    exact h.woven_comments
  | cons t ts ih =>
    rw [List.forall_mem_cons] at hts
    rw [woven_cons, List.append_assoc, List.cons_append, List.map_cons, List.cons_append]
    exact ((ih hts.2).cons hts.1).woven_comments

/-- No node of a tree is taken for a comment. -/
lemma toNode_ne_comment (h : t.Sound) (hp : t.piece ∉ [.rule .file, .rule .definition, .rule .serviceDef]) :
    (t.toNode comments).hasChildren = true ∨ (t.toNode comments).isComment = false := by
  cases t with
  | leaf k => exact Or.inr (isComment_token (h.spelled k (by simp [Tree.tokens])))
  | node r cs =>
    simp only [Tree.piece, List.mem_cons, Piece.rule.injEq, List.not_mem_nil, or_false, not_or] at hp
    exact Or.inl (hasChildren_toNode h.derives hp.2.2 hp.1)

lemma describeService_withoutComments {name : List CodePoint} {methods : List Method} :
    ((describeService name methods).map some).map (Option.map Service.withoutComments) =
      (describeService name (methods.map Method.withoutComments)).map some := by
  rw [describeService, describeService, map_map_result, map_map_result, map_map_result]
  rfl

lemma readEntity_withoutComments (h : (Proto.Tree.node .serviceDef cs).Sound) :
    (readEntity ((Proto.Tree.node .serviceDef cs).toNode [])).1 =
      (readEntity ((Proto.Tree.node .serviceDef cs).toNode comments)).1.map (Option.map Service.withoutComments) := by
  obtain ⟨keyword, title, opening, body, closing, hs⟩ := h.derives.service
  have hpiece : ∀ c ∈ cs, c.piece ∉ [.rule .file, .rule .definition, .rule .serviceDef] := fun c hc =>
    check_pieces .serviceDef (Rule.mem_all _) (by decide) (by decide) _
      (Shape.mem_pieces h.derives.split.1 (List.mem_map_of_mem hc))
  have hinner : ∀ c ∈ cs, c.toNode comments = c.toNode [] := fun c hc =>
    toNode_of_inner (h.child hc).derives (hpiece c hc)
  have hmem : ∀ c ∈ [keyword, title, opening] ++ body ++ [closing], c ∈ cs := by
    intro c hc
    rw [hs.children]
    simpa using hc
  have hbody : woven Comment.node (Tree.toNode comments) body (bodyComments cs comments) =
      woven Comment.node (Tree.toNode []) body (bodyComments cs comments) :=
    woven_congr (fun _ _ => rfl) fun c hc => hinner c (hmem c (by simp [hc]))
  have hchildren : ((Proto.Tree.node .serviceDef cs).toNode comments).children =
      keyword.toNode [] :: title.toNode [] :: opening.toNode [] ::
        (woven Comment.node (Tree.toNode []) body (bodyComments cs comments) ++ [closing.toNode []]) := by
    rw [Tree.toNode_service, Node.children, hs.woven_eq h, hbody, hinner keyword (hmem _ (by simp)),
      hinner title (hmem _ (by simp)), hinner opening (hmem _ (by simp)), hinner closing (hmem _ (by simp))]
  have hplain : ((Proto.Tree.node .serviceDef cs).toNode []).children =
      keyword.toNode [] :: title.toNode [] :: opening.toNode [] ::
        (body.map (Tree.toNode []) ++ [closing.toNode []]) := by
    rw [Tree.toNode_node, Node.children, hs.children]
    simp
  have hleaf : ∀ c ∈ cs, (c.toNode []).hasChildren = true ∨ (c.toNode []).isComment = false :=
    fun c hc => toNode_ne_comment (h.child hc) (hpiece c hc)
  have hstrips : Strips (woven Comment.node (Tree.toNode []) body (bodyComments cs comments) ++
      [closing.toNode []]) (body.map (Tree.toNode []) ++ [closing.toNode []]) :=
    strips_woven (fun c hc => hleaf c (hmem c (by simp [hc])))
      (strips_nil.cons (hleaf closing (hmem closing (by simp))))
  unfold readEntity slotText
  rw [hchildren, hplain]
  simp only [List.getElem?_cons_zero, List.getElem?_cons_succ, Option.map_some, Option.getD_some, headLength,
    List.drop_succ_cons, List.drop_zero]
  split_ifs
  · rfl
  · rfl
  · dsimp only
    rw [hstrips _ []]
    cases (readElements (title.toNode []).text []
      (woven Comment.node (Tree.toNode []) body (bodyComments cs comments) ++ [closing.toNode []])).1 with
    | error issues => rfl
    | ok methods => exact describeService_withoutComments.symm

/-- The services of a file without its comments are those of the file without their comments. -/
lemma extract_withoutComments {items : List Tree} (h : (Proto.Tree.node .file items).Sound)
    (hc : ∀ c ∈ comments, c.text ≠ []) :
    (extract ((Proto.Tree.node .file items).toNode [])).1 =
      (extract ((Proto.Tree.node .file items).toNode comments)).1.map (List.map Service.withoutComments) := by
  rw [extract_file h (by simp), extract_file h hc]
  exact inOrder_map fun cs hcs => readEntity_withoutComments (service_sound h hcs)

/-- Comments are transparent: a text and the text with its comments blanked are accepted together, the tree
of the one is the tree of the other without its comments, and the services are the same but for the comments
on their methods. -/
theorem comments_transparent (text : String) :
    (parse (blank text)).isOk = (parse text).isOk ∧
      parse (blank text) = (parse text).map Node.withoutComments ∧
      ∀ tree, parse text = .ok tree → ∃ blanked services, parse (blank text) = .ok blanked ∧
        (extract tree).1 = .ok services ∧ (extract blanked).1 = .ok (services.map Service.withoutComments) := by
  have hparse := parse_blanked text
  refine ⟨?_, hparse, fun tree htree => ?_⟩
  · rw [hparse]
    cases parse text <;> rfl
  · obtain ⟨services, hservices⟩ := exists_extract htree
    obtain ⟨items, ms, -, hms, hsound, -, rfl⟩ := parse_eq_ok htree
    refine ⟨_, services, by rw [hparse, htree]; rfl, hservices, ?_⟩
    rw [Tree.withoutComments_toNode, extract_withoutComments hsound hms.comment_ne_nil, hservices]
    rfl

/-- A mark inside a string opens no comment, and a quote inside a comment opens no string. -/
example : blank "a//b'\n'/*'/*\"c\n*/d" = "a    \n'/*'    \n  d" := by decide +kernel

end Service

end Stubsmith
