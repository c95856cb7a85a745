import Stubsmith.Proofs.Proto.Lines
import Stubsmith.Proofs.Proto.Soundness
import Stubsmith.Proofs.Service.Findings

/-!
# Which comments a method gets

The comments of a method are those that stand between it and the last method, option or opening brace
before it, except for those that begin on a line on which an element of the service ends. Semicolons
hold no comment back. No comment is given to two methods, and none is taken from inside a method, an
option or another service.
-/
namespace Stubsmith.Proto

open Text (CodePoint)

namespace Tree

def children : Tree → List Tree
  | leaf _ => []
  | node _ cs => cs

/-- The texts of the tokens, one behind the other. -/
def text (t : Tree) : String := String.ofList (t.tokens.flatMap Token.text)

/-- A method that streams neither its requests nor its responses. -/
def isUnary : Tree → Bool
  | node .method cs => !cs.any fun c => c.piece = .token (.keyword .kwStream)
  | _ => false

/-- The children of the service that a statement declares, if it declares one. -/
def service? : Tree → Option (List Tree)
  | node .definition [node .serviceDef cs] => some cs
  | _ => none

/-- The services of a file, each as the list of its children. -/
def services (file : Tree) : List (List Tree) := file.children.filterMap service?

end Tree

/-- The name of a service or a method with these children. -/
def declaredName (cs : List Tree) : String := (cs[1]?.map Tree.text).getD ""

/-- The types of the requests and the responses of a method with these children. -/
def declaredTypes (cs : List Tree) : List CodePoint × List CodePoint :=
  ((cs[3]?.map Tree.text).getD "", (cs[7]?.map Tree.text).getD "")

/-- A method in its service. -/
structure MethodSite where
  /-- The opening brace of the service and the elements of its body. -/
  elements : List Tree
  /-- Those of them that stand before the method. -/
  before : List Tree
  method : Tree

/-- The methods without streams among the elements that come after those `before`. -/
def sitesFrom (elements before : List Tree) : List Tree → List MethodSite
  | [] => []
  | e :: es =>
    if e.isUnary then ⟨elements, before, e⟩ :: sitesFrom elements (before ++ [e]) es
    else sitesFrom elements (before ++ [e]) es

/-- The methods of a service without streams, in order. -/
def methodSites (service : List Tree) : List MethodSite :=
  sitesFrom (bodyElements service) [] (bodyElements service)

/-- Where the last of the elements ends that is no semicolon. -/
def fence (before : List Tree) : Nat :=
  ((before.filter (·.piece ≠ .token .semicolon)).getLast?.map Tree.stop).getD 0

/-- The comment belongs to the method: it begins behind the last method, option or opening brace before
the method, it begins before the method, and it does not begin on the line on which the last element
before it ends. -/
def MethodSite.owns (cs : List Char) (s : MethodSite) (c : Comment) : Bool :=
  fence s.before ≤ c.position.offset && c.position.offset < s.method.start
    && (s.elements.filter fun e => e.stop ≤ c.position.offset).getLast?.all fun e =>
      lineAt cs e.stop ≠ lineAt cs c.position.offset

/-- The text inside a comment. -/
def Comment.inner (c : Comment) : List CodePoint := Service.commentText (Text.points c.text)

/-- The children of a method: two types in parentheses, each with or without `stream` before it. -/
lemma Tree.Derives.method {cs : List Tree} (h : (Tree.node .method cs).Derives) :
    ∃ (first second : List Piece) (last : Piece), cs.map Tree.piece =
        [Piece.token (.keyword .kwRpc), Piece.rule .methodName, Piece.token .openParen] ++ first ++
        [Piece.rule .messageType, Piece.token .closeParen, Piece.token (.keyword .kwReturns), Piece.token .openParen] ++
        second ++ [Piece.rule .messageType, Piece.token .closeParen, last] ∧
      first ∈ [[], [.token (.keyword .kwStream)]] ∧ second ∈ [[], [.token (.keyword .kwStream)]] ∧
      last ∈ [.rule .block, .token .semicolon] := by
  have hm := h.split.1
  simp only [Rule.shape, Shape.sequence, Shape.oneOf, Shape.optional, Shape.keyword, Shape.rule,
    Shape.token, Shape.matches_seq, Shape.matches_piece, Shape.matches_alt, Shape.matches_empty] at hm
  obtain ⟨_, _, hcs, rfl, _, _, rfl, rfl, _, _, rfl, ⟨_, _, rfl, rfl, first, _, rfl, hfirst, _, _, rfl,
    rfl, rfl⟩, _, _, rfl, rfl, _, _, rfl, ⟨_, _, rfl, rfl, second, _, rfl, hsecond, _, _, rfl, rfl, rfl⟩,
    hlast⟩ := hm
  rcases hlast with rfl | rfl
  · exact ⟨first, second, .rule .block, by simpa using hcs, by simpa [or_comm] using hfirst,
      by simpa [or_comm] using hsecond, by simp⟩
  · exact ⟨first, second, .token .semicolon, by simpa using hcs, by simpa [or_comm] using hfirst,
      by simpa [or_comm] using hsecond, by simp⟩

/-- Where the name and the types of a method without streams stand. -/
lemma Tree.Derives.unary_slots {cs : List Tree} (h : (Tree.node .method cs).Derives)
    (hu : (Tree.node .method cs).isUnary = true) :
    (cs.map Tree.piece)[1]? = some (Piece.rule .methodName) ∧
      (cs.map Tree.piece)[3]? = some (Piece.rule .messageType) ∧
      (cs.map Tree.piece)[7]? = some (Piece.rule .messageType) := by
  obtain ⟨first, second, last, hpieces, hfirst, hsecond, -⟩ := h.method
  have hstream : Piece.token (.keyword .kwStream) ∉ cs.map Tree.piece := by
    simpa [Tree.isUnary] using hu
  rw [hpieces] at hstream ⊢
  simp only [List.mem_cons, List.not_mem_nil, or_false] at hfirst hsecond
  rcases hfirst with rfl | rfl
  · rcases hsecond with rfl | rfl
    · exact ⟨rfl, rfl, rfl⟩
    · simp at hstream
  · simp at hstream

/-- In a method with streams, `stream` stands in the place of a type. -/
lemma Tree.Derives.stream_slots {cs : List Tree} (h : (Tree.node .method cs).Derives)
    (hu : (Tree.node .method cs).isUnary = false) :
    (cs.map Tree.piece)[3]? = some (Piece.token (.keyword .kwStream)) ∨
      (cs.map Tree.piece)[7]? = some (Piece.token (.keyword .kwStream)) := by
  obtain ⟨first, second, last, hpieces, hfirst, hsecond, hlast⟩ := h.method
  have hstream : Piece.token (.keyword .kwStream) ∈ cs.map Tree.piece := by
    simpa [Tree.isUnary] using hu
  rw [hpieces] at hstream ⊢
  simp only [List.mem_cons, List.not_mem_nil, or_false] at hfirst hsecond hlast
  rcases hfirst with rfl | rfl
  · rcases hsecond with rfl | rfl
    · rcases hlast with rfl | rfl <;> simp at hstream
    · exact Or.inr rfl
  · exact Or.inl rfl

/-- The child of a node at an index at which a piece stands. -/
lemma exists_child {cs : List Tree} {i : Nat} {p : Piece} (h : (cs.map Tree.piece)[i]? = some p) :
    ∃ c, cs[i]? = some c ∧ c.piece = p := by
  rw [List.getElem?_map] at h
  exact Option.map_eq_some_iff.mp h

/-- The text of a syntax tree is the text of the tokens of its parse tree. -/
lemma Tree.Sound.text_toNode {t : Tree} {comments : List Comment} (h : t.Sound)
    (hc : ∀ c ∈ comments, c.text ≠ []) : (t.toNode comments).text = t.text := by
  have hleaves := t.leaves_toNode (fun k hk => (h.spelled k hk).ne_nil) hc
  rw [Node.text_eq, hleaves, flatMap_value_marks (by rw [tokensOf_marks]; exact h.spelled),
    tokensOf_marks, text, String.toList_ofList]

lemma Tree.Sound.text_ne_empty {t : Tree} (h : t.Sound) (hne : t.tokens ≠ []) : t.text ≠ "" := by
  obtain ⟨k, ks, hk⟩ := List.exists_cons_of_ne_nil hne
  intro he
  have htext := congrArg String.toList he
  rw [text, String.toList_ofList, String.toList_empty, hk, List.flatMap_cons, List.append_eq_nil_iff] at htext
  exact (h.spelled k (by simp [hk])).ne_nil htext.1

end Stubsmith.Proto

namespace Stubsmith.Service

open Proto
open Text (CodePoint)

variable {cs ts : List Tree} {e t : Tree} {comments bs : List Comment} {name : List CodePoint}
variable {waiting : List (List CodePoint)} {ns : List Node}

@[simp] lemma children_method :
    ((Proto.Tree.node .method cs).toNode comments).children = cs.map (Tree.toNode comments) := by
  rw [Tree.toNode_of_ne (by decide)]
  rfl

/-- The slots of a method are judged by the rules of its children. -/
lemma slotFlaw_eq_none {i : Nat} {kind : String} (h : cs[i]? = some t) :
    slotFlaw ((Proto.Tree.node .method cs).toNode comments) (i, kind) = none ↔ t.piece.name = kind := by
  have hkind : (Piece.name (.rule .method)).toList ≠ [] := by decide
  simp [slotFlaw, h, Tree.piece, hkind]

/-- The name, the types and the comments of a method. -/
def parts (m : Method) : String × (List CodePoint × List CodePoint) × List (List CodePoint) :=
  (m.name, (m.request, m.response), m.comments)

/-- A method without streams is read with its name, its types and the comments that wait for it. -/
lemma readMethod_unary (h : (Proto.Tree.node .method cs).Sound) (hc : ∀ c ∈ comments, c.text ≠ [])
    (hu : (Proto.Tree.node .method cs).isUnary = true) :
    ∃ m, readMethod ((Proto.Tree.node .method cs).toNode comments) waiting = .ok (.ok m) ∧
      parts m = (declaredName cs, declaredTypes cs, waiting.filter (· != [])) := by
  obtain ⟨h1, h3, h7⟩ := h.derives.unary_slots hu
  obtain ⟨title, htitle, hp⟩ := exists_child h1
  obtain ⟨request, hrequest, hp3⟩ := exists_child h3
  obtain ⟨response, hresponse, hp7⟩ := exists_child h7
  have hslots : slotsFlaw ((Proto.Tree.node .method cs).toNode comments) = none := by
    simp only [slotsFlaw, methodSlots, List.findSome?_eq_none_iff, List.forall_mem_cons]
    refine ⟨(slotFlaw_eq_none htitle).mpr (by rw [hp]; rfl), (slotFlaw_eq_none hrequest).mpr (by rw [hp3]; rfl),
      (slotFlaw_eq_none hresponse).mpr (by rw [hp7]; rfl), fun _ hx => absurd hx List.not_mem_nil⟩
  have htext : ∀ {i : Nat} {child : Tree}, cs[i]? = some child →
      slotText ((Proto.Tree.node .method cs).toNode comments) i = child.text := by
    intro i child hchild
    simp [slotText, hchild, (h.child (List.mem_of_getElem? hchild)).text_toNode hc]
  have hsound := h.child (List.mem_of_getElem? htitle)
  have hne := hsound.text_ne_empty (hsound.derives.tokens_ne_nil (by simp [hp]))
  have hnil : (title.text : List CodePoint) ≠ [] := by simpa using hne
  refine ⟨⟨title.text, request.text, response.text, waiting.filter (· != []), hne⟩, ?_, ?_⟩
  · unfold readMethod
    simp only [hslots, htext htitle, htext hrequest, htext hresponse, if_neg hnil, describeMethod_coe hne]
  · simp [parts, declaredName, declaredTypes, htitle, hrequest, hresponse]

/-- A method with streams is not read. -/
lemma readMethod_stream (h : (Proto.Tree.node .method cs).Sound)
    (hu : (Proto.Tree.node .method cs).isUnary = false) :
    ∃ flaw, readMethod ((Proto.Tree.node .method cs).toNode comments) waiting = .error flaw := by
  have hname : Piece.name (.token (.keyword .kwStream)) ≠ "message_type" := by decide
  have hslots : slotsFlaw ((Proto.Tree.node .method cs).toNode comments) ≠ none := by
    intro hnone
    simp only [slotsFlaw, methodSlots, List.findSome?_eq_none_iff, List.forall_mem_cons] at hnone
    obtain ⟨-, hrequest, hresponse, -⟩ := hnone
    rcases h.derives.stream_slots hu with h3 | h7
    · obtain ⟨child, hchild, hp⟩ := exists_child h3
      exact hname (hp ▸ (slotFlaw_eq_none hchild).mp hrequest)
    · obtain ⟨child, hchild, hp⟩ := exists_child h7
      exact hname (hp ▸ (slotFlaw_eq_none hchild).mp hresponse)
  obtain ⟨flaw, hflaw⟩ := Option.ne_none_iff_exists'.mp hslots
  exact ⟨flaw, by simp only [readMethod, hflaw]⟩

/-- Comments are added to those that wait. -/
lemma readElements_comments : readElements name waiting (bs.map Comment.node ++ ns) =
    readElements name (waiting ++ bs.map Comment.inner) ns := by
  induction bs generalizing waiting with
  | nil => simp
  | cons b bs ih =>
    have hcomment : b.node.isComment = true := isComment_comment b
    have hleaf : b.node.hasChildren = false := rfl
    have hvalue : commentText b.node.value = b.inner := rfl
    rw [List.map_cons, List.cons_append, readElements]
    simp only [hleaf, hcomment, hvalue, Bool.not_false, if_true]
    rw [ih, List.append_assoc, List.map_cons, List.singleton_append]

/-- A token changes nothing. -/
lemma readElements_leaf {k : Token} (hk : k.kind.Spells k.text) :
    readElements name waiting ((Tree.leaf k).toNode comments :: ns) = readElements name waiting ns := by
  have hcomment : ((Tree.leaf k).toNode comments).isComment = false := isComment_token hk
  have hleaf : ((Tree.leaf k).toNode comments).hasChildren = false := rfl
  rw [readElements]
  simp only [hleaf, hcomment, Bool.not_false, if_true, Bool.false_eq_true, if_false]

lemma hasChildren_toNode {r : Rule} (h : (Proto.Tree.node r cs).Derives) (hr : r ≠ .serviceDef)
    (hfile : r ≠ .file) : ((Proto.Tree.node r cs).toNode comments).hasChildren = true := by
  have hne : cs ≠ [] := by
    rintro rfl
    exact h.tokens_ne_nil (by simpa [Tree.piece] using hfile) rfl
  rw [Tree.toNode_of_ne hr]
  simpa [Node.hasChildren, Node.children] using hne

/-- An option discards the comments that wait. -/
lemma readElements_option (h : (Proto.Tree.node .optionDecl cs).Sound) :
    (readElements name waiting ((Proto.Tree.node .optionDecl cs).toNode comments :: ns)).1 =
      (readElements name [] ns).1 := by
  have hchildren : ((Proto.Tree.node .optionDecl cs).toNode comments).hasChildren = true :=
    hasChildren_toNode h.derives (by decide) (by decide)
  have hkind : ((Proto.Tree.node .optionDecl cs).toNode comments).kind = Rule.optionDecl.name := Tree.kind_toNode
  have hother : ((Rule.optionDecl.name : List CodePoint) != [] &&
      (Rule.optionDecl.name : List CodePoint) != methodKind) = true := by decide
  rw [readElements]
  simp only [hchildren, hkind, hother, Bool.not_true, Bool.false_eq_true, if_false, if_true]

/-- A method takes the comments that wait if it has no streams, and else discards them. -/
lemma readElements_method (h : (Proto.Tree.node .method cs).Sound) (hc : ∀ c ∈ comments, c.text ≠ []) :
    (readElements name waiting ((Proto.Tree.node .method cs).toNode comments :: ns)).1.map (List.map parts) =
      (readElements name [] ns).1.map fun ms => (if (Proto.Tree.node .method cs).isUnary then
        [(declaredName cs, declaredTypes cs, waiting.filter (· != []))] else []) ++ ms.map parts := by
  have hchildren : ((Proto.Tree.node .method cs).toNode comments).hasChildren = true :=
    hasChildren_toNode h.derives (by decide) (by decide)
  have hkind : ((Proto.Tree.node .method cs).toNode comments).kind = "rpc" := Tree.kind_toNode
  rw [readElements]
  simp only [hchildren, hkind, methodKind, Bool.not_true, Bool.false_eq_true, if_false, bne_self_eq_false,
    Bool.and_false]
  cases hu : (Proto.Tree.node .method cs).isUnary with
  | true =>
    obtain ⟨m, hm, hparts⟩ := @readMethod_unary cs comments waiting h hc hu
    simp [hm, hparts, map_map_result]
  | false =>
    obtain ⟨flaw, hflaw⟩ := @readMethod_stream cs comments waiting h hu
    simp [hflaw]

/-- The methods without streams among some elements, each with the comments of which it takes the text,
when `pending` wait before the elements and `bs` stand among them. -/
def collect : (pending : List Comment) → List Tree → (bs : List Comment) → List (Tree × List Comment)
  | _, [], _ => []
  | pending, e :: es, bs =>
    let waiting := pending ++ bs.takeWhile (·.position.offset < e.start)
    let rest := bs.dropWhile (·.position.offset < e.start)
    if e.piece = .token .semicolon then collect waiting es rest
    else (if e.isUnary then [(e, waiting)] else []) ++ collect [] es rest

/-- What a method is shown as: its name, its types and the texts of its comments that are not empty. -/
def shown (m : Tree × List Comment) : String × (List CodePoint × List CodePoint) × List (List CodePoint) :=
  (declaredName m.1.children, declaredTypes m.1.children, (m.2.map Comment.inner).filter (· != []))

/-- The elements of a service, with comments woven between them, are read as they are collected. -/
lemma readElements_woven {pending : List Comment} {k : Token} (hk : k.kind.Spells k.text)
    (hc : ∀ c ∈ comments, c.text ≠ [])
    (hts : ∀ e ∈ ts, e.Sound ∧ e.piece ∈ [.rule .method, .rule .optionDecl, .token .semicolon]) :
    (readElements name (pending.map Comment.inner) (woven Comment.node (Tree.toNode comments) ts bs ++
        [(Tree.leaf k).toNode comments])).1.map (List.map parts) = .ok ((collect pending ts bs).map shown) := by
  induction ts generalizing pending bs with
  | nil =>
    rw [woven_nil, readElements_comments, readElements_leaf hk]
    rfl
  | cons e es ih =>
    rw [List.forall_mem_cons] at hts
    obtain ⟨⟨hsound, hpiece⟩, hes⟩ := hts
    rw [woven_cons, List.append_assoc, readElements_comments, ← List.map_append, List.cons_append, collect]
    generalize pending ++ bs.takeWhile (·.position.offset < e.start) = waiting
    generalize bs.dropWhile (·.position.offset < e.start) = rest
    simp only [List.mem_cons, List.not_mem_nil, or_false] at hpiece
    cases e with
    | leaf u =>
      have hsemicolon : (Tree.leaf u).piece = .token .semicolon := by
        rcases hpiece with hp | hp | hp
        · cases hp
        · cases hp
        · exact hp
      rw [readElements_leaf (hsound.spelled u (by simp [Tree.tokens])), if_pos hsemicolon, ih hes]
    | node r cs =>
      have hne : (Proto.Tree.node r cs).piece ≠ .token .semicolon := by simp [Tree.piece]
      rw [if_neg hne]
      rcases hpiece with hp | hp | hp
      · cases hp
        obtain ⟨ms, hms, hparts⟩ := exists_of_map_eq_ok (@ih rest [] hes)
        rw [List.map_nil] at hms
        rw [readElements_method hsound hc, hms, Except.map, List.map_append, hparts]
        cases (Proto.Tree.node .method cs).isUnary <;> rfl
      · cases hp
        rw [readElements_option hsound]
        exact @ih rest [] hes
      · cases hp

section Between

variable {a b c : Nat}

lemma takeWhile_eq_filter (h : bs.Pairwise fun a b => a.position.offset < b.position.offset) :
    bs.takeWhile (·.position.offset < b) = bs.filter (·.position.offset < b) := by
  induction bs with
  | nil => rfl
  | cons d bs ih =>
    rw [List.pairwise_cons] at h
    by_cases hd : d.position.offset < b
    · rw [List.takeWhile_cons_of_pos (by simpa using hd), List.filter_cons_of_pos (by simpa using hd),
        ih h.2]
    · rw [List.takeWhile_cons_of_neg (by simpa using hd), List.filter_cons_of_neg (by simpa using hd),
        eq_comm, List.filter_eq_nil_iff]
      intro e he
      have hlt := h.1 e he
      simp only [decide_eq_true_eq]
      omega

lemma dropWhile_eq_filter (h : bs.Pairwise fun a b => a.position.offset < b.position.offset) :
    bs.dropWhile (·.position.offset < b) = bs.filter (b ≤ ·.position.offset) := by
  induction bs with
  | nil => rfl
  | cons d bs ih =>
    rw [List.pairwise_cons] at h
    by_cases hd : d.position.offset < b
    · rw [List.dropWhile_cons_of_pos (by simpa using hd), List.filter_cons_of_neg (by simpa using hd),
        ih h.2]
    · rw [List.dropWhile_cons_of_neg (by simpa using hd), eq_comm, List.filter_eq_self]
      intro e he
      rcases List.mem_cons.mp he with rfl | he
      · simpa using hd
      · have hlt := h.1 e he
        simp only [decide_eq_true_eq]
        omega

/-- The comments that begin at or behind `a` and before `b`. -/
def between (a b : Nat) (bs : List Comment) : List Comment :=
  bs.filter fun c => a ≤ c.position.offset && c.position.offset < b

/-- The comments that begin at or behind `a`. -/
def behind (a : Nat) (bs : List Comment) : List Comment := bs.filter (a ≤ ·.position.offset)

lemma takeWhile_behind (h : bs.Pairwise fun a b => a.position.offset < b.position.offset) :
    (behind a bs).takeWhile (·.position.offset < b) = between a b bs := by
  rw [behind, takeWhile_eq_filter (h.sublist List.filter_sublist), List.filter_filter, between]
  refine List.filter_congr fun c _ => ?_
  rw [Bool.and_comm]

lemma dropWhile_behind (h : bs.Pairwise fun a b => a.position.offset < b.position.offset) (hab : a ≤ b) :
    (behind a bs).dropWhile (·.position.offset < b) = behind b bs := by
  rw [behind, dropWhile_eq_filter (h.sublist List.filter_sublist), List.filter_filter, behind]
  refine List.filter_congr fun c _ => ?_
  simp only [← Bool.decide_and, decide_eq_decide]
  omega

lemma between_append (h : bs.Pairwise fun a b => a.position.offset < b.position.offset) (hab : a ≤ b)
    (hbc : b ≤ c) : between a b bs ++ between b c bs = between a c bs := by
  have hsplit := @List.takeWhile_append_dropWhile _ (·.position.offset < b) (between a c bs)
  rw [between, takeWhile_eq_filter (h.sublist List.filter_sublist),
    dropWhile_eq_filter (h.sublist List.filter_sublist), List.filter_filter, List.filter_filter] at hsplit
  rw [between, between, between, ← hsplit]
  congr 1
  · refine List.filter_congr fun d _ => ?_
    simp only [← Bool.decide_and, decide_eq_decide]
    omega
  · refine List.filter_congr fun d _ => ?_
    simp only [← Bool.decide_and, decide_eq_decide]
    omega

end Between

/-- Where the last of some elements ends. -/
def lastStop (before : List Tree) : Nat := (before.getLast?.map Tree.stop).getD 0

lemma lastStop_concat {before : List Tree} : lastStop (before ++ [e]) = e.stop := by
  simp [lastStop]

lemma fence_concat {before : List Tree} :
    fence (before ++ [e]) = if e.piece = .token .semicolon then fence before else e.stop := by
  by_cases he : e.piece = .token .semicolon
  · simp [fence, he]
  · simp [fence, he, List.filter_append]

lemma isUnary_token {k : Terminal} (h : e.piece = .token k) : e.isUnary = false := by
  cases e with
  | leaf k => rfl
  | node r cs => cases h

/-- Each method takes the comments between the last method or option before it and itself. -/
lemma collect_eq {elements before : List Tree}
    (hbs : bs.Pairwise fun a b => a.position.offset < b.position.offset)
    (hts : ts.Pairwise fun a b => a.stop ≤ b.start) (hpos : ∀ e ∈ ts, e.start < e.stop)
    (hout : ∀ e ∈ ts, ∀ c ∈ bs, e.start ≤ c.position.offset → e.stop ≤ c.position.offset)
    (hlast : ∀ e ∈ ts, lastStop before ≤ e.start) (hfence : fence before ≤ lastStop before) :
    collect (between (fence before) (lastStop before) bs) ts (behind (lastStop before) bs) =
      (sitesFrom elements before ts).map fun s => (s.method, between (fence s.before) s.method.start bs) := by
  -- What waits before an element are the comments from the fence to the end of the last element.
  induction ts generalizing before with
  | nil => rfl
  | cons e es ih =>
    rw [List.pairwise_cons] at hts
    rw [List.forall_mem_cons] at hpos hout hlast
    obtain ⟨hnext, hes⟩ := hts
    obtain ⟨hepos, hpos⟩ := hpos
    obtain ⟨heout, hout⟩ := hout
    have hnone : between e.start e.stop bs = [] := by
      rw [between, List.filter_eq_nil_iff]
      intro c hc
      have hstop := heout c hc
      simp only [Bool.and_eq_true, decide_eq_true_eq]
      omega
    have hwaiting : between (fence before) (lastStop before) bs ++
        (behind (lastStop before) bs).takeWhile (·.position.offset < e.start) =
          between (fence before) e.start bs := by
      rw [takeWhile_behind hbs, between_append hbs hfence hlast.1]
    have hrest : (behind (lastStop before) bs).dropWhile (·.position.offset < e.start) =
        behind e.stop bs := by
      rw [dropWhile_behind hbs hlast.1, ← @List.takeWhile_append_dropWhile _ (·.position.offset < e.stop)
        (behind e.start bs), takeWhile_behind hbs, hnone, dropWhile_behind hbs hepos.le, List.nil_append]
    have hmono : fence before ≤ e.start := hfence.trans hlast.1
    rw [collect, sitesFrom]
    simp only [hwaiting, hrest]
    by_cases he : e.piece = .token .semicolon
    · have hstep := @ih (before ++ [e]) hes hpos hout
        (by rwa [lastStop_concat]) (by rw [lastStop_concat, fence_concat, if_pos he]; omega)
      rw [lastStop_concat, fence_concat, if_pos he, ← between_append hbs hmono hepos.le, hnone,
        List.append_nil] at hstep
      rw [if_pos he, isUnary_token he, if_neg Bool.false_ne_true, hstep]
    · have hstep := @ih (before ++ [e]) hes hpos hout
        (by rwa [lastStop_concat]) (by rw [lastStop_concat, fence_concat, if_neg he])
      have hnil : between e.stop e.stop bs = [] := by
        rw [between, List.filter_eq_nil_iff]
        intro c _
        simp only [Bool.and_eq_true, decide_eq_true_eq]
        omega
      rw [lastStop_concat, fence_concat, if_neg he, hnil] at hstep
      rw [if_neg he, hstep]
      cases e.isUnary <;> rfl

lemma mem_sitesFrom {elements before : List Tree} {s : MethodSite} (h : s ∈ sitesFrom elements before ts) :
    s.elements = elements ∧ s.method.isUnary = true ∧
      ∃ u v, ts = u ++ s.method :: v ∧ s.before = before ++ u := by
  induction ts generalizing before with
  | nil => cases h
  | cons e es ih =>
    have hlater : s ∈ sitesFrom elements (before ++ [e]) es → s.elements = elements ∧
        s.method.isUnary = true ∧ ∃ u v, e :: es = u ++ s.method :: v ∧ s.before = before ++ u := by
      intro hs
      obtain ⟨helements, hunary, u, v, rfl, hbefore⟩ := ih hs
      exact ⟨helements, hunary, e :: u, v, rfl, by simpa using hbefore⟩
    rw [sitesFrom] at h
    split_ifs at h with hunary
    · rcases List.mem_cons.mp h with rfl | h
      · exact ⟨rfl, hunary, [], es, rfl, by simp⟩
      · exact hlater h
    · exact hlater h

/-- Each method is among the elements before the methods behind it. -/
lemma sitesFrom_ordered {elements before : List Tree} :
    (sitesFrom elements before ts).Pairwise fun a b => a.method ∈ b.before := by
  induction ts generalizing before with
  | nil => exact List.Pairwise.nil
  | cons e es ih =>
    rw [sitesFrom]
    split_ifs
    · refine List.pairwise_cons.mpr ⟨fun b hb => ?_, ih⟩
      obtain ⟨-, -, u, v, -, hbefore⟩ := mem_sitesFrom hb
      simp [hbefore]
    · exact ih

/-- Elements that are no semicolons end at the fence or before it. -/
lemma stop_le_fence {before : List Tree} (hordered : before.Pairwise fun a b => a.stop ≤ b.start)
    (hpos : ∀ e ∈ before, e.start < e.stop) (he : e ∈ before) (hp : e.piece ≠ .token .semicolon) :
    e.stop ≤ fence before := by
  induction before using List.reverseRecOn with
  | nil => cases he
  | append_singleton before d ih =>
    rw [List.pairwise_append] at hordered
    rw [fence_concat]
    rcases List.mem_append.mp he with he | he
    · have hle := hordered.2.2 e he d (by simp)
      have hd := hpos d (by simp)
      split_ifs
      · exact ih hordered.1 (fun a ha => hpos a (by simp [ha])) he
      · omega
    · rw [List.mem_singleton.mp he] at hp ⊢
      rw [if_neg hp]

section Site

variable {text : List Char} {ms : List Mark} {keyword title opening closing : Tree} {body : List Tree}
variable {s : MethodSite} {c : Comment}

/-- A comment outside all elements stands alone if the last element before it ends on another line. -/
lemma standsAlone_eq {elements : List Tree} (hms : Scanned .start text ms)
    (htokens : ∀ e ∈ elements, e.tokens ≠ [] ∧ ∀ k ∈ e.tokens, k ∈ tokensOf ms) (hc : c ∈ commentsOf ms)
    (hout : ∀ e ∈ elements, e.start ≤ c.position.offset → e.stop ≤ c.position.offset) :
    c.standsAlone elements = (elements.filter fun e => e.stop ≤ c.position.offset).getLast?.all fun e =>
      lineAt text e.stop ≠ lineAt text c.position.offset := by
  have hany : (elements.any fun e => e.start ≤ c.position.offset && c.position.offset < e.stop) = false := by
    rw [List.any_eq_false]
    intro e he
    have hstop := hout e he
    simp only [Bool.and_eq_true, decide_eq_true_eq]
    omega
  have hline : lineAt text c.position.offset = c.position.line := hms.lineAt_offset (mem_commentsOf.mp hc)
  rw [Comment.standsAlone, hany, Bool.not_false, Bool.true_and, hline]
  cases hlast : (elements.filter fun e => e.stop ≤ c.position.offset).getLast? with
  | none => rfl
  | some e =>
    have he : e ∈ elements := (List.mem_filter.mp (List.mem_of_getLast? hlast)).1
    obtain ⟨hne, hmem⟩ := htokens e he
    rw [Bool.eq_iff_iff]
    simp [Tree.lastLine_eq hms hmem hne]

lemma methodSites_eq (h : IsService cs keyword title opening body closing) :
    methodSites cs = sitesFrom (opening :: body) [opening] body := by
  rw [methodSites, h.bodyElements_eq, sitesFrom, isUnary_token h.opening]
  rfl

/-- The elements before a method, the method and the elements behind it stand between the name and the
closing brace of the service. -/
lemma exists_split (h : IsService cs keyword title opening body closing) (hs : s ∈ methodSites cs) :
    s.elements = opening :: body ∧ opening ∈ s.before ∧ s.method.isUnary = true ∧
      ∃ v, s.elements = s.before ++ s.method :: v ∧
        cs = [keyword, title] ++ (s.before ++ (s.method :: v ++ [closing])) := by
  rw [methodSites_eq h] at hs
  obtain ⟨helements, hunary, u, v, rfl, hbefore⟩ := mem_sitesFrom hs
  rw [h.children, helements, hbefore]
  exact ⟨rfl, by simp, hunary, v, by simp, by simp⟩

/-- The elements before a method that are no semicolons end at its fence or before it. -/
lemma before_le_fence (h : IsService cs keyword title opening body closing)
    (hsound : (Proto.Tree.node .serviceDef cs).Sound) (hs : s ∈ methodSites cs) (he : e ∈ s.before)
    (hp : e.piece ≠ .token .semicolon) : e.stop ≤ fence s.before := by
  obtain ⟨-, -, -, v, -, hchildren⟩ := exists_split h hs
  have hordered := hsound.children_ordered
  rw [hchildren, List.pairwise_append, List.pairwise_append] at hordered
  refine stop_le_fence hordered.2.1.1 (fun e he => hsound.child_start_lt_stop ?_) he hp
  rw [hchildren]
  simp only [List.mem_append]
  tauto

/-- A method ends before what comes behind it begins. -/
lemma method_stop_le (h : IsService cs keyword title opening body closing)
    (hsound : (Proto.Tree.node .serviceDef cs).Sound) (hs : s ∈ methodSites cs) :
    s.method.start < s.method.stop ∧ s.method.stop ≤ closing.start ∧
      ∀ v, s.elements = s.before ++ s.method :: v → ∀ e ∈ v, s.method.stop ≤ e.start := by
  obtain ⟨-, -, -, v, helements, hchildren⟩ := exists_split h hs
  have hmem : s.method ∈ cs := by simp [hchildren]
  have hordered := hsound.children_ordered
  rw [hchildren, List.pairwise_append, List.pairwise_append] at hordered
  have hback := (List.pairwise_cons.mp hordered.2.1.2.1).1
  refine ⟨hsound.child_start_lt_stop hmem, hback closing (by simp), fun w hw e he => hback e ?_⟩
  rw [helements, List.append_cancel_left_eq] at hw
  simp [(List.cons.inj hw).2, he]

/-- A comment between the fence of a method and the method stands between the braces of the service and
inside no element. -/
lemma outside_elements (h : IsService cs keyword title opening body closing)
    (hsound : (Proto.Tree.node .serviceDef cs).Sound) (hms : Scanned .start text ms)
    (htokens : ∀ k ∈ (Proto.Tree.node .serviceDef cs).tokens, k ∈ tokensOf ms) (hs : s ∈ methodSites cs)
    (hc : c ∈ commentsOf ms) (hle : fence s.before ≤ c.position.offset)
    (hlt : c.position.offset < s.method.start) :
    opening.stop ≤ c.position.offset ∧ c.position.offset < closing.start ∧
      ∀ e ∈ s.elements, e.start ≤ c.position.offset → e.stop ≤ c.position.offset := by
  obtain ⟨-, hopening, -, v, helements, hchildren⟩ := exists_split h hs
  obtain ⟨hpos, hclosing, hbehind⟩ := method_stop_le h hsound hs
  have hfence : opening.stop ≤ fence s.before :=
    before_le_fence h hsound hs hopening (by simp [h.opening])
  refine ⟨by omega, by omega, fun e he hstart => ?_⟩
  rw [helements] at he
  rcases List.mem_append.mp he with he | he
  · by_cases hp : e.piece = .token .semicolon
    · -- A semicolon holds nothing back, but it is a token, and no comment begins inside a token.
      cases e with
      | node r ds => cases hp
      | leaf k =>
        have hmem : Tree.leaf k ∈ cs := by simp [hchildren, he]
        exact hms.outside_token (htokens k (Tree.mem_tokens_of_child hmem (List.mem_singleton_self k))) hc
          hstart
    · exact (before_le_fence h hsound hs he hp).trans hle
  · rcases List.mem_cons.mp he with rfl | he
    · omega
    · have hlater := hbehind v helements e he
      omega

/-- Of the comments of the body, those between the fence and the method belong to the method. -/
lemma between_bodyComments (h : IsService cs keyword title opening body closing)
    (hsound : (Proto.Tree.node .serviceDef cs).Sound) (hms : Scanned .start text ms)
    (htokens : ∀ k ∈ (Proto.Tree.node .serviceDef cs).tokens, k ∈ tokensOf ms) (hs : s ∈ methodSites cs) :
    between (fence s.before) s.method.start (bodyComments cs (commentsOf ms)) =
      (commentsOf ms).filter (s.owns text) := by
  have helements := (exists_split h hs).1
  have hchild : ∀ e ∈ opening :: body, e.tokens ≠ [] ∧ ∀ k ∈ e.tokens, k ∈ tokensOf ms := by
    intro e he
    have hmem : e ∈ cs := by
      rw [h.children, ← List.cons_append]
      exact List.mem_cons_of_mem _ (List.mem_cons_of_mem _ (List.mem_append_left _ he))
    exact ⟨(hsound.child hmem).derives.tokens_ne_nil (hsound.derives.child_ne_file hmem),
      fun k hk => htokens k (Tree.mem_tokens_of_child hmem hk)⟩
  rw [h.bodyComments_eq, between, List.filter_filter]
  refine List.filter_congr fun c hc => ?_
  rw [MethodSite.owns, helements]
  by_cases hbetween : fence s.before ≤ c.position.offset ∧ c.position.offset < s.method.start
  · obtain ⟨hopening, hclosing, hout⟩ :=
      outside_elements h hsound hms htokens hs hc hbetween.1 hbetween.2
    rw [helements] at hout
    rw [standsAlone_eq hms hchild hc hout]
    simp [hbetween.1, hbetween.2, hopening, hclosing]
  · have hfalse : (decide (fence s.before ≤ c.position.offset) &&
        decide (c.position.offset < s.method.start)) = false := by
      rw [← Bool.decide_and]
      exact decide_eq_false hbetween
    rw [hfalse, Bool.false_and, Bool.false_and]

/-- The comments of a service are collected for the methods to which they belong. -/
lemma collect_bodyComments (h : IsService cs keyword title opening body closing)
    (hsound : (Proto.Tree.node .serviceDef cs).Sound) (hms : Scanned .start text ms)
    (htokens : ∀ k ∈ (Proto.Tree.node .serviceDef cs).tokens, k ∈ tokensOf ms) :
    collect [] body (bodyComments cs (commentsOf ms)) =
      (methodSites cs).map fun s => (s.method, (commentsOf ms).filter (s.owns text)) := by
  have hbs := hms.comments_ordered.sublist (@Tree.bodyComments_sublist (commentsOf ms) cs)
  have hordered := hsound.children_ordered
  rw [h.children, List.pairwise_cons, List.pairwise_cons, List.pairwise_cons, List.pairwise_append] at hordered
  have hmem : ∀ e ∈ body, e ∈ cs := fun e he => by simp [h.children, he]
  have hlast : lastStop [opening] = opening.stop := rfl
  have hfence : fence [opening] = opening.stop := by simp [fence, h.opening]
  have hnil : between opening.stop opening.stop (bodyComments cs (commentsOf ms)) = [] := by
    rw [between, List.filter_eq_nil_iff]
    intro c _
    simp only [Bool.and_eq_true, decide_eq_true_eq]
    omega
  have hall : behind opening.stop (bodyComments cs (commentsOf ms)) = bodyComments cs (commentsOf ms) := by
    rw [behind, List.filter_eq_self]
    intro c hc
    simpa using (h.mem_bodyComments hc).2.1
  have hcollect := @collect_eq body (bodyComments cs (commentsOf ms)) (opening :: body) [opening] hbs
    hordered.2.2.2.1 (fun e he => hsound.child_start_lt_stop (hmem e he))
    (fun e he c hc => h.outside hsound hc e (hmem e he))
    (fun e he => hordered.2.2.1 e (by simp [he])) (by rw [hlast, hfence])
  rw [hlast, hfence, hnil, hall, ← methodSites_eq h] at hcollect
  rw [hcollect]
  refine List.map_congr_left fun s hs => ?_
  rw [between_bodyComments h hsound hms htokens hs]

end Site

end Stubsmith.Service
