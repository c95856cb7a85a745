import Stubsmith.Proofs.Proto.Completeness
import Stubsmith.Proofs.Proto.Soundness

/-!
# Drafts

A draft is a text that is made together with its parse tree: a sequence of lexemes, blanks and comments
included, and the trees that its tokens form wherever the text begins. Drafts are put one behind the other and
gathered in nodes. The text of a draft of a file is read to the trees of the draft if each lexeme can be told
from what stands behind it.
-/
namespace Stubsmith.Proto

variable {p : Position} {ls us vs : List Lexeme} {rest : List Char}

/-- The text of some lexemes. -/
def textOf (ls : List Lexeme) : List Char := ls.flatMap Lexeme.text

/-- The marks of lexemes that stand one behind the other from a position on. -/
def marksFrom : Position → List Lexeme → List Mark
  | _, [] => []
  | p, l :: ls => l.marks p ++ marksFrom (p.after l.text) ls

def Lexeme.token? : Lexeme → Option (Terminal × List Char)
  | token k v => some (k, v)
  | _ => none

@[simp] lemma textOf_nil : textOf [] = [] := rfl

@[simp] lemma textOf_cons (l : Lexeme) : textOf (l :: ls) = l.text ++ textOf ls := rfl

@[simp] lemma textOf_append : textOf (us ++ vs) = textOf us ++ textOf vs := List.flatMap_append

@[simp] lemma marksFrom_append (p : Position) (us vs : List Lexeme) :
    marksFrom p (us ++ vs) = marksFrom p us ++ marksFrom (p.after (textOf us)) vs := by
  induction us generalizing p with
  | nil => rfl
  | cons l us ih => simp [marksFrom, ih, Position.after_append]

/-- Where a mark stands among the lexemes. -/
lemma mem_marksFrom {m : Mark} (h : m ∈ marksFrom p ls) :
    ∃ (us : List Lexeme) (l : Lexeme) (vs : List Lexeme), ls = us ++ l :: vs ∧ m ∈ l.marks (p.after (textOf us)) := by
  induction ls generalizing p with
  | nil => cases h
  | cons l ls ih =>
    rcases List.mem_append.mp h with h | h
    · exact ⟨[], l, ls, rfl, h⟩
    · obtain ⟨us, k, vs, rfl, hm⟩ := ih h
      exact ⟨l :: us, k, vs, rfl, by simpa [Position.after_append] using hm⟩

lemma Lexeme.position_of_mem_marks {l : Lexeme} {m : Mark} (h : m ∈ l.marks p) :
    m.position = p ∧ m.text = l.text := by
  cases l with
  | space v => cases h
  | comment v =>
    rw [List.mem_singleton.mp h]
    exact ⟨rfl, rfl⟩
  | token k v =>
    rw [List.mem_singleton.mp h]
    exact ⟨rfl, rfl⟩

/-- The marks of lexemes stand in their text. -/
lemma offset_of_mem_marksFrom {m : Mark} (h : m ∈ marksFrom p ls) :
    p.offset ≤ m.offset ∧ m.stop ≤ p.offset + (textOf ls).length ∧ p.line ≤ m.position.line := by
  obtain ⟨us, l, vs, rfl, hm⟩ := mem_marksFrom h
  obtain ⟨hposition, htext⟩ := Lexeme.position_of_mem_marks hm
  simp only [Mark.stop, Mark.offset, hposition, htext, Position.offset_after, Position.line_after, textOf_append,
    textOf_cons, List.length_append]
  omega

lemma line_of_mem_marksFrom {m : Mark} (hls : '\n' ∉ textOf ls) (h : m ∈ marksFrom p ls) :
    m.position.line = p.line := by
  obtain ⟨us, l, vs, rfl, hm⟩ := mem_marksFrom h
  have hus : '\n' ∉ textOf us := fun hmem => hls (by simp [hmem])
  rw [(Lexeme.position_of_mem_marks hm).1, Position.line_after, List.count_eq_zero.mpr hus, Nat.add_zero]

/-- The tokens have the kinds and the texts of the lexemes. -/
lemma map_tokensOf_marksFrom (p : Position) (ls : List Lexeme) :
    (tokensOf (marksFrom p ls)).map (fun t => (t.kind, t.text)) = ls.filterMap Lexeme.token? := by
  induction ls generalizing p with
  | nil => rfl
  | cons l ls ih =>
    rw [marksFrom, tokensOf_append, List.map_append, ih]
    cases l <;> rfl

/-- Tokens with nothing between them have the text of the lexemes. -/
lemma flatMap_text_tokensOf (h : ∀ l ∈ ls, ∃ k v, l = .token k v) :
    (tokensOf (marksFrom p ls)).flatMap Token.text = textOf ls := by
  induction ls generalizing p with
  | nil => rfl
  | cons l ls ih =>
    rw [List.forall_mem_cons] at h
    obtain ⟨⟨k, v, rfl⟩, hls⟩ := h
    rw [marksFrom, Lexeme.marks, List.singleton_append, tokensOf_token, List.flatMap_cons, ih hls]
    rfl

lemma mem_of_mem_tokensOf {k : Token} (h : k ∈ tokensOf (marksFrom p ls)) : .token k.kind k.text ∈ ls := by
  have hpair : (k.kind, k.text) ∈ ls.filterMap Lexeme.token? := by
    rw [← map_tokensOf_marksFrom p]
    exact List.mem_map_of_mem h
  obtain ⟨l, hl, he⟩ := List.mem_filterMap.mp hpair
  cases l with
  | token k v =>
    cases he
    exact hl
  | space v => cases he
  | comment v => cases he

lemma mem_of_mem_commentsOf {c : Comment} (h : c ∈ commentsOf (marksFrom p ls)) : .comment c.text ∈ ls := by
  obtain ⟨us, l, vs, rfl, hm⟩ := mem_marksFrom (mem_commentsOf.mp h)
  cases l with
  | space v => cases hm
  | comment v =>
    cases List.mem_singleton.mp hm
    simp
  | token k v => cases List.mem_singleton.mp hm

/-- In front of `rest` the lexeme is read as it is. -/
def Lexeme.Legible (rest : List Char) : Lexeme → Prop
  | space v => ∀ c ∈ v, isSpace c = true
  | comment v => comment? (v ++ rest) = some v
  | token k v => k.Spells v ∧ k.Detached rest

/-- In front of `rest` all the lexemes are read as they are. -/
def Legible (rest : List Char) : List Lexeme → Prop
  | [] => True
  | l :: ls => l.Legible (textOf ls ++ rest) ∧ Legible rest ls

@[simp] lemma legible_nil : Legible rest [] := trivial

@[simp] lemma legible_cons {l : Lexeme} :
    Legible rest (l :: ls) ↔ l.Legible (textOf ls ++ rest) ∧ Legible rest ls := Iff.rfl

@[simp] lemma legible_append : Legible rest (us ++ vs) ↔ Legible (textOf vs ++ rest) us ∧ Legible rest vs := by
  induction us with
  | nil => simp
  | cons l us ih => simp [ih, and_assoc]

lemma Legible.spelled (h : Legible rest ls) {k : Terminal} {v : List Char} (hm : .token k v ∈ ls) : k.Spells v := by
  induction ls with
  | nil => cases hm
  | cons l ls ih =>
    rcases List.mem_cons.mp hm with rfl | hm
    · exact h.1.1
    · exact ih h.2 hm

lemma Legible.comment_ne_nil (h : Legible rest ls) {v : List Char} (hm : .comment v ∈ ls) : v ≠ [] := by
  induction ls with
  | nil => cases hm
  | cons l ls ih =>
    rcases List.mem_cons.mp hm with rfl | hm
    · exact (comment?_spec h.1).1
    · exact ih h.2 hm

/-- Legible lexemes are read one after the other if their tokens are taken. -/
theorem Reader.run_legible {r : Reader} {s : Stack} (h : Legible rest ls)
    (hs : r.stack.Takes (tokensOf (marksFrom r.position ls)) s) :
    ∃ r' : Reader, r.run 0 (textOf ls ++ rest) = r'.run 0 rest ∧ r'.stack = s ∧
      r'.comments = (commentsOf (marksFrom r.position ls)).reverse ++ r.comments := by
  induction ls generalizing r with
  | nil =>
    cases hs
    exact ⟨r, rfl, rfl, rfl⟩
  | cons l ls ih =>
    obtain ⟨hl, hls⟩ := h
    rw [textOf_cons, List.append_assoc]
    cases l with
    | space v =>
      rw [Lexeme.text, Reader.run_spaces hl]
      exact ih hls hs
    | comment v =>
      rw [Lexeme.text, Reader.run_comment hl]
      obtain ⟨r', hrun, hstack, hcomments⟩ := ih hls (r := { r with
        position := r.position.after v, comments := ⟨v, r.position⟩ :: r.comments }) hs
      refine ⟨r', hrun, hstack, ?_⟩
      rw [hcomments, marksFrom, Lexeme.marks, List.singleton_append, commentsOf_comment]
      simp [Lexeme.text]
    | token k v =>
      rw [marksFrom, Lexeme.marks, List.singleton_append, tokensOf_token] at hs
      rcases hs with _ | ⟨ha, ht, hs⟩
      have hrun := Reader.run_take (t := ⟨k, v, r.position⟩) ha rfl ht hl.2
      rw [Lexeme.text, hrun]
      exact ih hls hs

/-- The second token is the name `stream`, behind an opening parenthesis. -/
def Bare (a b : Terminal × List Char) : Prop :=
  a.1 = .openParen ∧ b = (.ident, Keyword.kwStream.spelling.toList)

section Bare

variable {ts us : List (Terminal × List Char)}

lemma isChain_cons_bare {t : Terminal × List Char} (h : t.1 ≠ .openParen) :
    ((t :: us).IsChain fun a b => ¬ Bare a b) ↔ us.IsChain fun a b => ¬ Bare a b := by
  rw [List.isChain_cons, and_iff_right]
  exact fun _ _ hbare => h hbare.1

lemma isChain_append_bare (h : ∀ t ∈ ts, t.1 ≠ .openParen) :
    ((ts ++ us).IsChain fun a b => ¬ Bare a b) ↔ us.IsChain fun a b => ¬ Bare a b := by
  induction ts with
  | nil => rfl
  | cons t ts ih =>
    rw [List.forall_mem_cons] at h
    rw [List.cons_append, isChain_cons_bare h.1, ih h.2]

lemma isChain_paren_bare {v : List Char} {t : Terminal × List Char}
    (h : t ≠ (.ident, Keyword.kwStream.spelling.toList)) :
    (((.openParen, v) :: t :: us).IsChain fun a b => ¬ Bare a b) ↔ (t :: us).IsChain fun a b => ¬ Bare a b := by
  rw [List.isChain_cons_cons, and_iff_right]
  exact fun hbare => h hbare.2

end Bare

/-- A text with the trees that its tokens form, wherever it begins. -/
structure Draft where
  lexemes : List Lexeme
  trees : Position → List Tree
  /-- The roots of the trees. -/
  pieces : List Piece
  tokens_eq : ∀ p, (trees p).flatMap Tree.tokens = tokensOf (marksFrom p lexemes)
  pieces_eq : ∀ p, (trees p).map Tree.piece = pieces
  derives : (∀ k v, .token k v ∈ lexemes → k.Spells v) → ∀ p, ∀ t ∈ trees p, t.Derives

namespace Draft

def text (d : Draft) : List Char := textOf d.lexemes

/-- The tokens among the lexemes, one leaf each. -/
def lex (ls : List Lexeme) : Draft where
  lexemes := ls
  trees p := (tokensOf (marksFrom p ls)).map .leaf
  pieces := (ls.filterMap Lexeme.token?).map fun t => .token t.1
  tokens_eq p := by
    rw [List.flatMap_map]
    exact List.flatMap_pure_eq_map id _ |>.trans (List.map_id _)
  pieces_eq p := by
    rw [← map_tokensOf_marksFrom p, List.map_map, List.map_map]
    rfl
  derives hspelled p t ht := by
    obtain ⟨k, hk, rfl⟩ := List.mem_map.mp ht
    exact Terminal.Spells.derives (hspelled _ _ (mem_of_mem_tokensOf hk))

/-- One draft behind the other. -/
def append (d e : Draft) : Draft where
  lexemes := d.lexemes ++ e.lexemes
  trees p := d.trees p ++ e.trees (p.after d.text)
  pieces := d.pieces ++ e.pieces
  tokens_eq p := by
    rw [List.flatMap_append, d.tokens_eq, e.tokens_eq, marksFrom_append, tokensOf_append, text]
  pieces_eq p := by rw [List.map_append, d.pieces_eq, e.pieces_eq]
  derives hspelled p t ht := by
    rcases List.mem_append.mp ht with ht | ht
    · exact d.derives (fun k v hm => hspelled k v (by simp [hm])) p t ht
    · exact e.derives (fun k v hm => hspelled k v (by simp [hm])) _ t ht

instance : Append Draft := ⟨append⟩

/-- The trees of the draft as the children of one node. -/
def node (r : Rule) (d : Draft) (h : r.shape.Matches d.pieces) : Draft where
  lexemes := d.lexemes
  trees p := [.node r (d.trees p)]
  pieces := [.rule r]
  tokens_eq p := by
    rw [List.flatMap_singleton, Tree.tokens, Tree.tokensAll_eq, d.tokens_eq]
  pieces_eq p := rfl
  derives hspelled p t ht := by
    rw [List.mem_singleton.mp ht]
    refine .node r _ ?_ (Tree.derivesAll_iff.mpr (d.derives hspelled p))
    rwa [d.pieces_eq]

/-- Some drafts one behind the other. -/
def concat : List Draft → Draft
  | [] => lex []
  | d :: ds => d ++ concat ds

variable {d e : Draft}

@[simp] lemma lexemes_lex : (lex ls).lexemes = ls := rfl

@[simp] lemma lexemes_append : (d ++ e).lexemes = d.lexemes ++ e.lexemes := rfl

@[simp] lemma lexemes_node {r : Rule} {h : r.shape.Matches d.pieces} : (node r d h).lexemes = d.lexemes := rfl

@[simp] lemma trees_append : (d ++ e).trees p = d.trees p ++ e.trees (p.after d.text) := rfl

@[simp] lemma text_append : (d ++ e).text = d.text ++ e.text := textOf_append

/-- The text of a file is read to the trees of its draft if it has no words and no name in it is taken for a
keyword. -/
theorem read_eq (h : Rule.file.shape.Matches d.pieces) (hl : Legible [] d.lexemes)
    (hplain : ∀ t ∈ d.lexemes.filterMap Lexeme.token?, t.1 ≠ .word)
    (hmarked : (d.lexemes.filterMap Lexeme.token?).IsChain fun a b => ¬ Bare a b) :
    read d.text = .ok (.node .file (d.trees .start), commentsOf (marksFrom .start d.lexemes)) := by
  have htree : (node .file d h).trees .start = [.node .file (d.trees .start)] := rfl
  have hderives := (node .file d h).derives (fun k v hm => hl.spelled hm) .start (.node .file (d.trees .start))
    (by simp [htree])
  have htokens : (Tree.node .file (d.trees .start)).tokens = tokensOf (marksFrom .start d.lexemes) := by
    rw [Tree.tokens, Tree.tokensAll_eq, d.tokens_eq]
  have hview := map_tokensOf_marksFrom .start d.lexemes
  have hspelled : ∀ k ∈ tokensOf (marksFrom .start d.lexemes), k.kind.Spells k.text :=
    fun k hk => hl.spelled (mem_of_mem_tokensOf hk)
  have hbare : Stack.Marked none (tokensOf (marksFrom .start d.lexemes)) := by
    rw [← hview, List.isChain_map] at hmarked
    refine hmarked.imp fun a b hab hbare => hab ⟨hbare.1, ?_⟩
    rw [hbare.2.1, hbare.2.2]
  have hclear : Stack.Clear none (tokensOf (marksFrom .start d.lexemes)) := by
    refine (List.pairwise_of_forall_mem_list fun a _ b hb hmis => ?_).isChain
    rw [← hview] at hplain
    exact hplain _ (List.mem_map_of_mem hb) hmis.2.1
  rw [← htokens] at hspelled hbare hclear
  obtain ⟨s, htakes, hclose⟩ := (Stack.reads_file hderives hspelled hbare).1 hclear
  rw [htokens] at htakes
  obtain ⟨r, hrun, rfl, hcomments⟩ := Reader.run_legible (r := .start) hl htakes
  rw [List.append_nil] at hrun
  refine read_eq_ok_iff.mpr ⟨r, hrun, hclose, ?_⟩
  rw [hcomments, show Reader.start.comments = [] from rfl, List.append_nil, List.reverse_reverse]
  rfl

end Draft

end Stubsmith.Proto
