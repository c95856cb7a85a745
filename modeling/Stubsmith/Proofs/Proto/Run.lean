import Mathlib.Data.List.Pairwise
import Stubsmith.Proofs.Proto.Strip
import Stubsmith.Proto.Parse

/-!
# Runs of the reader

A run that comes to the end of a text takes the text apart into blanks, comments and tokens. The
tokens and the comments are the marks of the text: each has a text and the position where it stands.
The reader shifts the tokens in order and keeps the comments.
-/
namespace Stubsmith.Proto

namespace Position

lemma after_append (p : Position) (u v : List Char) : p.after (u ++ v) = (p.after u).after v :=
  List.foldl_append

@[simp] lemma offset_after (p : Position) (v : List Char) : (p.after v).offset = p.offset + v.length := by
  unfold after
  induction v generalizing p with
  | nil => rfl
  | cons c v ih =>
    rw [List.foldl_cons, ih, List.length_cons]
    unfold next
    split_ifs <;> simp only <;> omega

@[simp] lemma line_after (p : Position) (v : List Char) : (p.after v).line = p.line + v.count '\n' := by
  unfold after
  induction v generalizing p with
  | nil => rfl
  | cons c v ih =>
    rw [List.foldl_cons, ih, List.count_cons]
    unfold next
    by_cases hc : c = '\n'
    · simp only [hc, if_true, BEq.rfl]
      omega
    · simp [hc]

end Position

namespace Reader

variable {r next : Reader} {rest : List Char}

lemma run_skip (r : Reader) (u cs : List Char) : r.run u.length (u ++ cs) = r.run 0 cs := by
  induction u with
  | nil => rfl
  | cons c u ih => rw [List.length_cons, List.cons_append, run, ih]

lemma run_lexeme {l : Lexeme} (hne : l.text ≠ [])
    (h : r.stack.top.offer.lexeme? (l.text ++ rest) = some l) (ha : r.accept l = .ok next) :
    r.run 0 (l.text ++ rest) = next.run 0 rest := by
  obtain ⟨c, cs, hl⟩ := List.exists_cons_of_ne_nil hne
  rw [hl, List.cons_append] at h ⊢
  rw [run, h]
  simp only [ha, hl, List.length_cons, Nat.add_sub_cancel]
  exact run_skip next cs rest

lemma run_refused {l : Lexeme} {e : SyntaxError} (hne : l.text ≠ [])
    (h : r.stack.top.offer.lexeme? (l.text ++ rest) = some l) (ha : r.accept l = .error e) :
    r.run 0 (l.text ++ rest) = .error e := by
  obtain ⟨c, cs, hl⟩ := List.exists_cons_of_ne_nil hne
  rw [hl, List.cons_append] at h ⊢
  rw [run, h]
  simp only [ha]

/-- A run that succeeds begins with a lexeme that is accepted. -/
lemma run_eq_ok {c : Char} {cs : List Char} {last : Reader} (h : r.run 0 (c :: cs) = .ok last) :
    ∃ l rest next, r.stack.top.offer.lexeme? (c :: cs) = some l ∧ c :: cs = l.text ++ rest ∧ l.Fronts rest ∧
      r.accept l = .ok next ∧ next.run 0 rest = .ok last := by
  rw [run] at h
  cases hl : r.stack.top.offer.lexeme? (c :: cs) with
  | none => simp [hl] at h
  | some l =>
    obtain ⟨rest, hcs, hf⟩ := Offer.lexeme?_fronts hl
    cases ha : r.accept l with
    | error e => simp [hl, ha] at h
    | ok next =>
      simp only [hl, ha] at h
      obtain ⟨d, u, hu⟩ := List.exists_cons_of_ne_nil hf.ne_nil
      have hu' : cs = u ++ rest := by
        rw [hu] at hcs
        exact (List.cons.inj hcs).2
      rw [hu, hu', List.length_cons, Nat.add_sub_cancel, run_skip] at h
      exact ⟨l, rest, next, rfl, hcs, hf, ha, h⟩

end Reader

/-- What a text holds besides blanks. -/
inductive Mark
  | token (t : Token)
  | comment (c : Comment)

namespace Mark

def text : Mark → List Char
  | token t => t.text
  | comment c => c.text

def position : Mark → Position
  | token t => t.position
  | comment c => c.position

def offset (m : Mark) : Nat := m.position.offset

def stop (m : Mark) : Nat := m.offset + m.text.length

def token? : Mark → Option Token
  | token t => some t
  | comment _ => none

def comment? : Mark → Option Comment
  | token _ => none
  | comment c => some c

end Mark

/-- The tokens among the marks. -/
def tokensOf (ms : List Mark) : List Token := ms.filterMap Mark.token?

/-- The comments among the marks. -/
def commentsOf (ms : List Mark) : List Comment := ms.filterMap Mark.comment?

lemma tokensOf_append (ms ns : List Mark) : tokensOf (ms ++ ns) = tokensOf ms ++ tokensOf ns :=
  List.filterMap_append

lemma commentsOf_append (ms ns : List Mark) : commentsOf (ms ++ ns) = commentsOf ms ++ commentsOf ns :=
  List.filterMap_append

@[simp] lemma tokensOf_token (t : Token) (ms : List Mark) :
    tokensOf (.token t :: ms) = t :: tokensOf ms := rfl

@[simp] lemma tokensOf_comment (c : Comment) (ms : List Mark) :
    tokensOf (.comment c :: ms) = tokensOf ms := rfl

@[simp] lemma commentsOf_token (t : Token) (ms : List Mark) :
    commentsOf (.token t :: ms) = commentsOf ms := rfl

@[simp] lemma commentsOf_comment (c : Comment) (ms : List Mark) :
    commentsOf (.comment c :: ms) = c :: commentsOf ms := rfl

lemma mem_tokensOf {ms : List Mark} {t : Token} : t ∈ tokensOf ms ↔ .token t ∈ ms := by
  unfold tokensOf
  rw [List.mem_filterMap]
  constructor
  · rintro ⟨m, hm, ht⟩
    cases m with
    | token u =>
      cases ht
      exact hm
    | comment c => cases ht
  · intro h
    exact ⟨_, h, rfl⟩

lemma mem_commentsOf {ms : List Mark} {c : Comment} : c ∈ commentsOf ms ↔ .comment c ∈ ms := by
  unfold commentsOf
  rw [List.mem_filterMap]
  constructor
  · rintro ⟨m, hm, hc⟩
    cases m with
    | token t => cases hc
    | comment d =>
      cases hc
      exact hm
  · intro h
    exact ⟨_, h, rfl⟩

/-- What a lexeme at the position `p` adds to the marks. -/
def Lexeme.marks (p : Position) : Lexeme → List Mark
  | space _ => []
  | comment v => [.comment ⟨v, p⟩]
  | token k v => [.token ⟨k, v, p⟩]

/-- The text that begins at a position consists of lexemes with these marks. -/
inductive Scanned : Position → List Char → List Mark → Prop
  | nil (p : Position) : Scanned p [] []
  | cons {p : Position} {l : Lexeme} {rest : List Char} {ms : List Mark} :
      l.Fronts rest → Scanned (p.after l.text) rest ms → Scanned p (l.text ++ rest) (l.marks p ++ ms)

/-- Accepting a lexeme shifts its token, keeps its comment and goes on behind it. -/
lemma Reader.accept_eq_ok {r next : Reader} {l : Lexeme} (h : r.accept l = .ok next) :
    next.position = r.position.after l.text ∧
      (tokensOf (l.marks r.position)).foldlM Stack.shift? r.stack = some next.stack ∧
      next.comments = (commentsOf (l.marks r.position)).reverse ++ r.comments := by
  cases l with
  | space v =>
    cases h
    exact ⟨rfl, rfl, rfl⟩
  | comment v =>
    cases h
    exact ⟨rfl, rfl, rfl⟩
  | token k v =>
    simp only [accept] at h
    split at h
    · next s hs =>
      cases h
      refine ⟨rfl, ?_, rfl⟩
      rw [Lexeme.marks, tokensOf_token, List.foldlM_cons, hs]
      rfl
    · cases h

/-- Accepting a lexeme keeps the place of its token. -/
lemma Reader.accept_lastToken {r next : Reader} {l : Lexeme} (h : r.accept l = .ok next) :
    next.lastToken = ((tokensOf (l.marks r.position)).getLast?.map Token.position).getD r.lastToken := by
  cases l with
  | space v =>
    cases h
    rfl
  | comment v =>
    cases h
    rfl
  | token k v =>
    simp only [accept] at h
    split at h
    · cases h
      rfl
    · cases h

/-- A run that succeeds takes the text apart, shifts its tokens, collects its comments and keeps the place of the last
token. -/
theorem Reader.run_scanned {cs : List Char} {r last : Reader} (h : r.run 0 cs = .ok last) :
    ∃ ms, Scanned r.position cs ms ∧ (tokensOf ms).foldlM Stack.shift? r.stack = some last.stack ∧
      last.comments = (commentsOf ms).reverse ++ r.comments ∧
      last.lastToken = ((tokensOf ms).getLast?.map Token.position).getD r.lastToken := by
  -- The induction is on the length, since a step takes a whole lexeme.
  induction hn : cs.length using Nat.strong_induction_on generalizing cs r with
  | _ n ih =>
    cases cs with
    | nil =>
      cases h
      exact ⟨[], .nil _, rfl, rfl, rfl⟩
    | cons c cs =>
      obtain ⟨l, rest, next, -, hcs, hf, ha, hrun⟩ := run_eq_ok h
      have hlt : rest.length < n := by
        have hlen := congrArg List.length hcs
        have hpos := List.length_pos_iff.mpr hf.ne_nil
        rw [List.length_append] at hlen
        omega
      obtain ⟨ms, hms, hstack, hcom, hlast⟩ := ih rest.length hlt hrun rfl
      obtain ⟨hpos, hshift, hkept⟩ := accept_eq_ok ha
      refine ⟨l.marks r.position ++ ms, ?_, ?_, ?_, ?_⟩
      · rw [hcs]
        exact .cons hf (hpos ▸ hms)
      · rw [tokensOf_append, List.foldlM_append, hshift]
        exact hstack
      · rw [hcom, hkept, commentsOf_append, List.reverse_append, List.append_assoc]
      · rw [hlast, accept_lastToken ha, tokensOf_append, List.getLast?_append]
        cases (tokensOf ms).getLast? <;> rfl

/-- A run that succeeds ends behind the text. -/
lemma Reader.position_run {cs : List Char} {r last : Reader} (h : r.run 0 cs = .ok last) :
    last.position = r.position.after cs := by
  induction hn : cs.length using Nat.strong_induction_on generalizing cs r with
  | _ n ih =>
    cases cs with
    | nil =>
      cases h
      rfl
    | cons c cs =>
      obtain ⟨l, rest, next, -, hcs, hf, ha, hrun⟩ := run_eq_ok h
      have hpos := List.length_pos_iff.mpr hf.ne_nil
      rw [hcs, List.length_append] at hn
      rw [ih rest.length (by omega) hrun rfl, (accept_eq_ok ha).1, hcs, Position.after_append]

namespace Scanned

variable {p : Position} {cs : List Char} {ms : List Mark}

/-- The scan without the grammar leaves the texts of the tokens. -/
lemma strip_eq (h : Scanned p cs ms) : strip cs = (tokensOf ms).flatMap Token.text := by
  induction h with
  | nil => rfl
  | cons hf _ ih =>
    cases hf with
    | space _ hv => exact (strip_space hv).trans ih
    | comment hc => exact (strip_comment hc).trans ih
    | token _ _ hs => exact hs.trans (congrArg _ ih)

lemma spelled (h : Scanned p cs ms) : ∀ t ∈ tokensOf ms, t.kind.Spells t.text := by
  induction h with
  | nil => simp [tokensOf]
  | cons hf _ ih =>
    cases hf with
    | space => exact ih
    | comment => exact ih
    | token hk _ _ =>
      intro t ht
      rcases List.mem_cons.mp ht with rfl | ht
      · exact hk
      · exact ih t ht

lemma comment_ne_nil (h : Scanned p cs ms) : ∀ c ∈ commentsOf ms, c.text ≠ [] := by
  induction h with
  | nil => simp [commentsOf]
  | cons hf _ ih =>
    cases hf with
    | space => exact ih
    | comment hc =>
      intro c hmem
      rcases List.mem_cons.mp hmem with rfl | hmem
      · exact (comment?_spec hc).1
      · exact ih c hmem
    | token => exact ih

lemma le_offset (h : Scanned p cs ms) : ∀ m ∈ ms, p.offset ≤ m.offset := by
  induction h with
  | nil => simp
  | @cons p l rest ms hf _ ih =>
    intro m hm
    rcases List.mem_append.mp hm with hm | hm
    · cases l with
      | space v => cases hm
      | comment v =>
        rw [List.mem_singleton.mp hm]
        exact le_refl _
      | token k v =>
        rw [List.mem_singleton.mp hm]
        exact le_refl _
    · have hle := ih m hm
      rw [Position.offset_after] at hle
      omega

/-- Each mark ends before the next begins. -/
lemma ordered (h : Scanned p cs ms) : ms.Pairwise fun a b => a.stop ≤ b.offset := by
  induction h with
  | nil => exact .nil
  | @cons p l rest ms hf hrest ih =>
    have hle := hrest.le_offset
    rw [Position.offset_after] at hle
    cases l with
    | space v => exact ih
    | comment v => exact List.pairwise_cons.mpr ⟨hle, ih⟩
    | token k v => exact List.pairwise_cons.mpr ⟨hle, ih⟩

lemma offsets_ordered (h : Scanned p cs ms) : ms.Pairwise fun a b => a.offset < b.offset := by
  refine h.ordered.imp_of_mem fun {a b} ha _ hab => ?_
  have hpos : 0 < a.text.length := by
    rw [List.length_pos_iff]
    cases a with
    | token t => exact (h.spelled t (mem_tokensOf.mpr ha)).ne_nil
    | comment c => exact h.comment_ne_nil c (mem_commentsOf.mpr ha)
  unfold Mark.stop at hab
  omega

lemma tokens_ordered (h : Scanned p cs ms) :
    (tokensOf ms).Pairwise fun a b => a.stop ≤ b.position.offset := by
  rw [tokensOf, List.pairwise_filterMap]
  refine h.ordered.imp fun {a b} hab t ht u hu => ?_
  cases a with
  | comment c => cases ht
  | token t =>
    cases ht
    cases b with
    | comment c => cases hu
    | token u =>
      cases hu
      exact hab

lemma comments_ordered (h : Scanned p cs ms) :
    (commentsOf ms).Pairwise fun a b => a.position.offset < b.position.offset := by
  rw [commentsOf, List.pairwise_filterMap]
  refine h.offsets_ordered.imp fun {a b} hab c hc d hd => ?_
  cases a with
  | token t => cases hc
  | comment c =>
    cases hc
    cases b with
    | token t => cases hd
    | comment d =>
      cases hd
      exact hab

end Scanned

end Stubsmith.Proto
