import Mathlib.Data.List.Sort
import Stubsmith.Proofs.Data.Result
import Stubsmith.Proofs.Proto.Weaving
import Stubsmith.Proofs.Text.Trimming

/-!
# What a parsed tree says about its text

The tree of an accepted text is a derivation once its comments are taken out, comments stand nowhere
but in the bodies of services, its text is the text of the file without blanks and comments, and its
leaves stand in the file one behind the other, each on its line.
-/
namespace Stubsmith.Proto

open Text (CodePoint)

namespace Node

mutual

/-- The tree without its comments. -/
def withoutComments : Node → Node
  | mk k v l cs => mk k v l (withoutCommentsAll cs)

def withoutCommentsAll : List Node → List Node
  | [] => []
  | n :: ns =>
    if n.kind = commentKind then withoutCommentsAll ns
    else n.withoutComments :: withoutCommentsAll ns

end

mutual

/-- The node and all nodes below it. -/
def subnodes : Node → List Node
  | mk k v l cs => mk k v l cs :: subnodesAll cs

def subnodesAll : List Node → List Node
  | [] => []
  | n :: ns => n.subnodes ++ subnodesAll ns

end

/-- Comments are children of services only: behind the keyword `service`, the name and the opening brace
come methods, options, semicolons and comments, and then the closing brace. -/
def WellCommented (n : Node) : Prop :=
  if n.kind = Rule.serviceDef.name then
    ∃ body : List String, n.children.map kind = ([Keyword.kwService.name, Rule.serviceName.name,
        Terminal.openBrace.name] ++ body ++ [Terminal.closeBrace.name]).map (Text.points ·.toList) ∧
      ∀ k ∈ body, k ∈ [Rule.method.name, Rule.optionDecl.name, Terminal.semicolon.name, commentKind]
  else ∀ c ∈ n.children, c.kind ≠ commentKind

lemma wellCommented_leaf {k v : List CodePoint} {l : Option Int} (h : k ≠ Rule.serviceDef.name) :
    (mk k v l []).WellCommented := by
  unfold WellCommented
  rw [kind, if_neg h]
  exact fun c hc => absurd hc List.not_mem_nil

/-- What is left of a child: nothing of a comment. -/
def kept (n : Node) : List Node := if n.kind = commentKind then [] else [n.withoutComments]

lemma kept_comment (c : Comment) : c.node.kept = [] := if_pos rfl

@[simp] theorem withoutCommentsAll_eq (ns : List Node) : withoutCommentsAll ns = ns.flatMap kept := by
  induction ns with
  | nil => rfl
  | cons n ns ih =>
    rw [withoutCommentsAll, ih, List.flatMap_cons, kept]
    split_ifs <;> rfl

@[simp] theorem subnodesAll_eq (ns : List Node) : subnodesAll ns = ns.flatMap subnodes := by
  induction ns with
  | nil => rfl
  | cons n ns ih => rw [subnodesAll, ih, List.flatMap_cons]

lemma subnodes_eq (n : Node) : n.subnodes = n :: n.children.flatMap subnodes := by
  obtain ⟨k, v, l, cs⟩ := n
  rw [subnodes, subnodesAll_eq, children]

mutual

/-- The text of a tree is the text of its leaves that are no comments. -/
theorem text_eq : ∀ n : Node, n.text = (n.leaves.filter fun l => !l.isComment).flatMap value
  | mk k v l [] => by
    rw [text, leaves]
    by_cases hv : v = []
    · simp [hv]
    · by_cases hc : (mk k v l []).isComment
      · simp [hv, hc]
      · simp [hv, hc, value]
  | mk k v l (c :: cs) => by
    rw [text, leaves, text_eq c, textAll_eq cs, leavesAll_eq, List.filter_append, List.flatMap_append]

theorem textAll_eq : ∀ ns : List Node, textAll ns =
    ((ns.flatMap leaves).filter fun l => !l.isComment).flatMap value
  | [] => rfl
  | n :: ns => by
    rw [textAll, text_eq n, textAll_eq ns, List.flatMap_cons, List.filter_append, List.flatMap_append]

end

end Node

lemma Piece.name_ne_comment (p : Piece) : (p.name : List CodePoint) ≠ Node.commentKind := by
  rw [Ne, Text.coe_inj]
  have hterminals : ∀ t ∈ Terminal.all, t.name ≠ Node.commentKind := by decide +kernel
  have hrules : ∀ r ∈ Rule.all, r.name ≠ Node.commentKind := by decide +kernel
  cases p with
  | token t => exact hterminals t (Terminal.mem_all t)
  | rule r => exact hrules r (Rule.mem_all r)

/-- The name of a rule is the name of nothing else. -/
lemma Piece.eq_rule_of_name {p : Piece} {r : Rule} (h : (p.name : List CodePoint) = r.name) : p = .rule r := by
  rw [Text.coe_inj] at h
  have hterminals : ∀ t ∈ Terminal.all, ∀ r ∈ Rule.all, t.name ≠ r.name := by decide +kernel
  have hrules : ∀ q ∈ Rule.all, ∀ r ∈ Rule.all, q.name = r.name → q = r := by decide +kernel
  cases p with
  | token t => exact absurd h (hterminals t (Terminal.mem_all t) r (Rule.mem_all r))
  | rule q => rw [hrules q (Rule.mem_all q) r (Rule.mem_all r) h]

namespace Tree

variable {t : Tree} {comments : List Comment}

@[simp] lemma kind_toNode : (t.toNode comments).kind = t.piece.name := by
  cases t with
  | leaf k => rfl
  | node r cs => rfl

theorem withoutComments_toNode : (t.toNode comments).withoutComments = t.toNode [] := by
  induction t using Tree.induction with
  | leaf k => rfl
  | node r cs ih =>
    have hcs : (cs.flatMap fun c => (c.toNode comments).kept) = cs.map (toNode []) := by
      rw [List.map_eq_flatMap]
      refine List.flatMap_congr fun c hc => ?_
      rw [Node.kept, kind_toNode, if_neg c.piece.name_ne_comment, ih c hc]
    rw [toNode_node]
    by_cases hr : r = .serviceDef
    · subst hr
      rw [toNode_service, Node.withoutComments, Node.withoutCommentsAll_eq,
        flatMap_woven fun c _ => Node.kept_comment c, hcs]
    · rw [toNode_of_ne hr, Node.withoutComments, Node.withoutCommentsAll_eq, List.flatMap_map, hcs]

lemma derivationAll_of_forall {cs : List Tree}
    (h : ∀ c ∈ cs, (c.toNode comments).Derivation c.piece) :
    Node.DerivationAll (cs.map piece) (cs.map (toNode comments)) := by
  induction cs with
  | nil => exact .nil
  | cons c cs ih => exact .cons (h c (by simp)) (ih fun d hd => h d (by simp [hd]))

/-- A parse tree that derives a piece gives a derivation of it. -/
theorem Derives.derivation (h : t.Derives) (hk : ∀ k ∈ t.tokens, k.kind.Spells k.text) :
    (t.toNode []).Derivation t.piece := by
  induction t using Tree.induction with
  | leaf k => exact .leaf _ (hk k (by simp [tokens]))
  | node r cs ih =>
    obtain ⟨hm, hcs⟩ := h.split
    rw [toNode_node]
    refine .node _ hm (derivationAll_of_forall fun c hc => ih c hc (hcs c hc) fun k hmem => ?_)
    refine hk k ?_
    rw [tokens, tokensAll_eq]
    exact List.mem_flatMap_of_mem hc hmem

lemma mem_children_toNode {r : Rule} {cs : List Tree} {n : Node}
    (h : n ∈ ((node r cs).toNode comments).children) :
    (∃ c ∈ cs, c.toNode comments = n) ∨ r = .serviceDef ∧ ∃ b : Comment, b.node = n := by
  by_cases hr : r = .serviceDef
  · subst hr
    rw [toNode_service, Node.children] at h
    rcases mem_woven.mp h with hc | ⟨b, _, hb⟩
    · exact Or.inl hc
    · exact Or.inr ⟨rfl, b, hb⟩
  · rw [toNode_of_ne hr, Node.children] at h
    exact Or.inl (List.mem_map.mp h)

lemma Sound.service_wellCommented {cs : List Tree} (h : (node .serviceDef cs).Sound) :
    ((node .serviceDef cs).toNode comments).WellCommented := by
  obtain ⟨keyword, name, opening, body, closing, hs⟩ := h.derives.service
  have hkind : ((node .serviceDef cs).toNode comments).kind = Rule.serviceDef.name := kind_toNode
  rw [Node.WellCommented, if_pos hkind, toNode_service, Node.children, hs.woven_eq h]
  refine ⟨woven (fun _ => Node.commentKind) (fun e => e.piece.name) body (bodyComments cs comments), ?_, ?_⟩
  · have hkinds : (fun c => (Comment.node c).kind) = fun _ => Text.points Node.commentKind.toList := rfl
    simp [map_woven, hkinds, hs.keyword, hs.name, hs.opening, hs.closing, Piece.name, Terminal.name]
  · intro k hk
    rcases mem_woven.mp hk with ⟨e, he, rfl⟩ | ⟨b, _, rfl⟩
    · have hp := hs.body e he
      simp only [List.mem_cons, List.not_mem_nil, or_false] at hp ⊢
      rcases hp with hp | hp | hp <;> simp [hp, Piece.name]
    · simp

/-- Comments stand in the bodies of services only. -/
theorem Sound.wellCommented (h : t.Sound) : ∀ n ∈ (t.toNode comments).subnodes, n.WellCommented := by
  induction t using Tree.induction with
  | leaf k =>
    intro n hn
    rw [toNode, Node.subnodes, Node.subnodesAll, List.mem_singleton] at hn
    subst hn
    refine Node.wellCommented_leaf fun he => ?_
    cases Piece.eq_rule_of_name (p := .token k.kind) he
  | node r cs ih =>
    intro n hn
    rw [Node.subnodes_eq] at hn
    rcases List.mem_cons.mp hn with rfl | hn
    · by_cases hr : r = .serviceDef
      · subst hr
        exact h.service_wellCommented
      · have hkind : ((node r cs).toNode comments).kind ≠ Rule.serviceDef.name := fun he =>
          hr (Piece.rule.inj (Piece.eq_rule_of_name (kind_toNode.symm.trans he)))
        rw [Node.WellCommented, if_neg hkind]
        intro m hm
        rcases mem_children_toNode hm with ⟨c, _, rfl⟩ | ⟨hr', _⟩
        · rw [kind_toNode]
          exact c.piece.name_ne_comment
        · exact absurd hr' hr
    · obtain ⟨m, hm, hn⟩ := List.mem_flatMap.mp hn
      rcases mem_children_toNode hm with ⟨c, hc, rfl⟩ | ⟨-, b, rfl⟩
      · exact ih c hc (h.child hc) n hn
      · rw [Comment.node, Node.subnodes, Node.subnodesAll, List.mem_singleton] at hn
        subst hn
        exact Node.wellCommented_leaf (by decide)

end Tree

/-- A lexeme begins neither with a blank nor with a comment mark. -/
lemma Terminal.Spells.head_plain {t : Terminal} {v : List Char} (h : t.Spells v) :
    ∃ c cs, v = c :: cs ∧ Text.isBlank c = false ∧ ∀ d ∈ cs.head?, OpensNothing c d := by
  obtain ⟨c, cs, rfl⟩ := List.exists_cons_of_ne_nil h.ne_nil
  refine ⟨c, cs, rfl, ?_⟩
  cases h with
  | fixed hv =>
    have hall : ∀ t ∈ Terminal.fixed, ((t.spelling?.getD []).head?.all fun c =>
        !Text.isBlank c && c != '/') = true := by decide +kernel
    have hc := hall t (Terminal.mem_fixed hv)
    simp only [hv, Option.getD_some, List.head?_cons, Option.all_some, Bool.and_eq_true,
      Bool.not_eq_true', bne_iff_ne] at hc
    exact ⟨hc.1, fun d _ he => absurd he hc.2⟩
  | ident hc _ =>
    have hw := isWordChar_of_isIdentRest (isIdentRest_of_isIdentStart hc)
    exact ⟨isBlank_of_isWordChar hw.1, fun d _ he => absurd he hw.2⟩
  | string hq _ =>
    rcases hq with rfl | rfl
    · exact ⟨rfl, fun d _ he => absurd he (by decide)⟩
    · exact ⟨rfl, fun d _ he => absurd he (by decide)⟩
  | word _ hall hchain =>
    refine ⟨isBlank_of_isWordChar (hall c (by simp)), fun d hd => ?_⟩
    exact (List.isChain_cons.mp hchain).1 d hd

lemma Terminal.Spells.looksLikeComment_eq_false {t : Terminal} {v : List Char} (h : t.Spells v) :
    Node.looksLikeComment (Text.points v) = false := by
  obtain ⟨c, cs, rfl, hc, hopen⟩ := h.head_plain
  have hpre : Text.trim (Text.points (c :: cs)) <+: Text.points (c :: cs) :=
    Text.trim_isPrefix (by rintro p ⟨⟩; exact hc)
  have hmark : ∀ d, d = '/' ∨ d = '*' → ¬ Text.points ['/', d] <+: Text.trim (Text.points (c :: cs)) := by
    intro d hd hp
    obtain ⟨rest, hrest⟩ := hp.trans hpre
    have hchars := congrArg Text.chars hrest
    rw [Text.chars_points, Text.chars_append, Text.chars_points] at hchars
    obtain ⟨rfl, htail⟩ := List.cons.inj hchars
    have hno := hopen d (by rw [← htail]; rfl) rfl
    tauto
  simp only [Node.looksLikeComment, Bool.or_eq_false_iff, Bool.and_eq_false_iff]
  refine ⟨Or.inl ?_, ?_⟩
  · exact Bool.eq_false_iff.mpr fun hp => hmark '*' (Or.inr rfl) (List.isPrefixOf_iff_prefix.mp hp)
  · exact Bool.eq_false_iff.mpr fun hp => hmark '/' (Or.inl rfl) (List.isPrefixOf_iff_prefix.mp hp)

lemma isComment_token {t : Token} (h : t.kind.Spells t.text) : (Mark.token t).node.isComment = false := by
  have hkind : t.kind.name ≠ Node.commentKind := mt Text.coe_inj.mpr (Piece.token t.kind).name_ne_comment
  simp [Mark.node, Node.isComment, Node.kind, Node.hasChildren, Node.children, Node.value, hkind,
    h.looksLikeComment_eq_false]

lemma isComment_comment (c : Comment) : (Mark.comment c).node.isComment = true := by
  simp [Mark.node, Comment.node, Node.isComment, Node.kind]

/-- Without the comments among them, marks give the texts of their tokens. -/
lemma flatMap_value_marks {ms : List Mark} (h : ∀ t ∈ tokensOf ms, t.kind.Spells t.text) :
    ((ms.map Mark.node).filter fun l => !l.isComment).flatMap Node.value =
      Text.points ((tokensOf ms).flatMap Token.text) := by
  induction ms with
  | nil => rfl
  | cons m ms ih =>
    cases m with
    | comment c =>
      rw [List.map_cons, List.filter_cons_of_neg (by simp [isComment_comment])]
      exact ih h
    | token t =>
      rw [tokensOf_token] at h ⊢
      rw [List.map_cons, List.filter_cons_of_pos (by simp [isComment_token (h t (by simp))]),
        List.flatMap_cons, ih fun u hu => h u (by simp [hu]), List.flatMap_cons, Text.points_append]
      rfl

/-- The leaves stand in the text one behind the other, with nothing but blanks and comments before,
between and behind them. The text begins on the line `line`, and the line of a leaf is `line` and one
more for each newline before the leaf. A leaf is a comment exactly if a comment stands there. -/
inductive Placed : Nat → List Node → List Char → Prop
  | nil (line : Nat) : Placed line [] []
  | space {line : Nat} {ns : List Node} {v rest : List Char} : (∀ c ∈ v, isSpace c = true) →
      Placed (line + v.count '\n') ns rest → Placed line ns (v ++ rest)
  | comment {line : Nat} {ns : List Node} {v rest : List Char} : comment? (v ++ rest) = some v →
      Placed (line + v.count '\n') ns rest → Placed line ns (v ++ rest)
  | leaf {line : Nat} {n : Node} {ns : List Node} {v rest : List Char} : n.value = Text.points v →
      n.line = some (line : Int) → (n.kind = Node.commentKind ↔ comment? (v ++ rest) = some v) →
      Placed (line + v.count '\n') ns rest → Placed line (n :: ns) (v ++ rest)

/-- The marks of a text, some comments left out, are placed in it. -/
theorem Scanned.placed {p : Position} {cs : List Char} {ms us : List Mark} (h : Scanned p cs ms)
    (hsub : us.Sublist ms) (htok : tokensOf us = tokensOf ms) : Placed p.line (us.map Mark.node) cs := by
  induction h generalizing us with
  | nil p =>
    rw [List.sublist_nil.mp hsub]
    exact .nil p.line
  | @cons p l rest ms hf hrest ih =>
    simp only [Position.line_after] at ih
    cases hf with
    | space _ hv => exact .space hv (ih hsub htok)
    | comment hc =>
      rcases List.sublist_cons_iff.mp hsub with hskip | ⟨vs, rfl, hkeep⟩
      · exact .comment hc (ih hskip htok)
      · exact .leaf rfl rfl (iff_of_true rfl hc) (ih hkeep htok)
    | @token k v _ hc _ =>
      rcases List.sublist_cons_iff.mp hsub with hskip | ⟨vs, rfl, hkeep⟩
      · -- A token cannot be left out.
        have hlen : (tokensOf us).length ≤ (tokensOf ms).length :=
          (hskip.filterMap Mark.token?).length_le
        rw [htok, Lexeme.marks, List.singleton_append, tokensOf_token, List.length_cons] at hlen
        omega
      · have hkind : (k.name : List CodePoint) ≠ Node.commentKind := (Piece.token k).name_ne_comment
        have hnone : comment? (v ++ rest) ≠ some v := by simp [hc]
        exact .leaf rfl rfl (iff_of_false hkind hnone) (ih hkeep (List.cons.inj htok).2)

/-- Marks in order that all occur among other marks in order are some of those. -/
lemma sublist_of_ordered {us ms : List Mark} (hus : us.Pairwise fun a b => a.offset < b.offset)
    (hms : ms.Pairwise fun a b => a.offset < b.offset) (h : us ⊆ ms) : us.Sublist ms := by
  have hanti : Std.Antisymm fun a b : Mark => a.offset < b.offset :=
    ⟨fun _ _ hab hba => absurd hab (Nat.lt_asymm hba)⟩
  have hnodup : us.Nodup := by
    refine hus.imp fun {a b} hab he => ?_
    rw [he] at hab
    exact Nat.lt_irrefl _ hab
  exact List.sublist_of_subperm_of_pairwise (List.subperm_of_subset hnodup h) hus hms

/-- A text is parsed if it is read. Its comments are then woven in. -/
lemma parse_eq_ok_iff {text : String} {tree : Node} : parse text = .ok tree ↔
    ∃ t comments, read text.toList = .ok (t, comments) ∧ t.toNode comments = tree := by
  unfold parse
  cases read text.toList with
  | error e => simp [bind, Except.bind]
  | ok result => simp [bind, Except.bind, pure, Except.pure, Prod.ext_iff]

/-- A text that is read consists of tokens and comments. Its tokens derive a file. -/
lemma read_sound {cs : List Char} {t : Tree} {comments : List Comment} (h : read cs = .ok (t, comments)) :
    ∃ items ms, t = .node .file items ∧ Scanned .start cs ms ∧ t.Sound ∧ t.tokens = tokensOf ms ∧
      comments = commentsOf ms := by
  obtain ⟨ms, hms, hderives, hpiece, htokens, rfl⟩ := read_eq_ok h
  cases t with
  | leaf k => cases hpiece
  | node r items =>
    cases hpiece
    exact ⟨items, ms, rfl, hms, ⟨hderives, htokens ▸ hms.spelled, htokens ▸ hms.tokens_ordered⟩, htokens, rfl⟩

/-- The tree of an accepted text is the file that is read from it, with the comments woven in. -/
lemma parse_eq_ok {text : String} {tree : Node} (h : parse text = .ok tree) :
    ∃ items ms, read text.toList = .ok (.node .file items, commentsOf ms) ∧ Scanned .start text.toList ms ∧
      (Tree.node .file items).Sound ∧ (Tree.node .file items).tokens = tokensOf ms ∧
      tree = (Tree.node .file items).toNode (commentsOf ms) := by
  obtain ⟨t, comments, hread, htree⟩ := parse_eq_ok_iff.mp h
  obtain ⟨items, ms, rfl, hms, hsound, htokens, rfl⟩ := read_sound hread
  exact ⟨items, ms, hread, hms, hsound, htokens, htree.symm⟩

/-- What is true of the tree of an accepted text: it is a derivation apart from the comments, which
stand in the bodies of services only; its text is the accepted text without blanks and comments; and
its leaves stand in the accepted text in order, each on its line. -/
theorem parse_sound {text : String} {tree : Node} (h : parse text = .ok tree) :
    tree.withoutComments.Derivation (.rule .file) ∧
    (∀ n ∈ tree.subnodes, n.WellCommented) ∧
    tree.text = Text.points (strip text.toList) ∧
    Placed 1 tree.leaves text.toList := by
  unfold parse at h
  cases hread : read text.toList with
  | error e => simp [hread, bind, Except.bind] at h
  | ok result =>
    obtain ⟨t, comments⟩ := result
    simp only [hread, bind, Except.bind, pure, Except.pure, Except.ok.injEq] at h
    subst h
    obtain ⟨ms, hms, hderives, hpiece, htokens, rfl⟩ := read_eq_ok hread
    have hspelled : ∀ k ∈ t.tokens, k.kind.Spells k.text := htokens ▸ hms.spelled
    have hsound : t.Sound := ⟨hderives, hspelled, htokens ▸ hms.tokens_ordered⟩
    have hleaves := t.leaves_toNode (fun k hk => (hspelled k hk).ne_nil) hms.comment_ne_nil
    have hmarks : t.marks (commentsOf ms) ⊆ ms := by
      intro m hm
      cases m with
      | token k =>
        have hk := mem_tokensOf.mpr hm
        rw [Tree.tokensOf_marks, htokens] at hk
        exact mem_tokensOf.mp hk
      | comment c => exact mem_commentsOf.mp (Tree.mem_of_comment_mem_marks hm)
    refine ⟨?_, hsound.wellCommented, ?_, ?_⟩
    · rw [Tree.withoutComments_toNode, ← hpiece]
      exact hderives.derivation hspelled
    · rw [Node.text_eq, hleaves, flatMap_value_marks (by rwa [Tree.tokensOf_marks]),
        Tree.tokensOf_marks, htokens, hms.strip_eq]
    · rw [hleaves]
      have hordered := (hsound.inOrder hms.comments_ordered).ordered
      exact hms.placed (sublist_of_ordered hordered hms.offsets_ordered hmarks)
        (by rw [Tree.tokensOf_marks, htokens])

/-- A keyword glued to a name, a quote inside a comment and a comment mark inside a string. -/
def gluedService : String :=
  "serviceS\x7b// a\n/* ' */rpc M(A)returns(B)\x7bx/y;'//'\x7d\x7d"

theorem gluedService_sound : ∃ tree, parse gluedService = .ok tree ∧
    tree.withoutComments.Derivation (.rule .file) ∧
    (∀ n ∈ tree.subnodes, n.WellCommented) ∧
    tree.text = "serviceS\x7brpcM(A)returns(B)\x7bx/y;'//'\x7d\x7d" ∧
    Placed 1 tree.leaves gluedService.toList := by
  obtain ⟨tree, h⟩ := exists_ok_of_isOk (x := parse gluedService) (by decide +kernel)
  obtain ⟨hd, hw, ht, hp⟩ := parse_sound h
  have hs : Text.points (strip gluedService.toList) =
      "serviceS\x7brpcM(A)returns(B)\x7bx/y;'//'\x7d\x7d" := by decide +kernel
  exact ⟨tree, h, hd, hw, ht.trans hs, hp⟩

end Stubsmith.Proto
