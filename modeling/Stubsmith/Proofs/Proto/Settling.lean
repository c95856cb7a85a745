import Stubsmith.Proofs.Proto.Closing
import Stubsmith.Proofs.Proto.Completeness

/-!
# Tokens that keep their kind

A word or a name is read as such only where no offered keyword has its spelling. So among the tokens of an
accepted text no word behind a closing brace and no name behind an opening parenthesis would be taken for a
keyword, however the tokens were glued to each other in the text.
-/
namespace Stubsmith.Proto

namespace Offer

variable {o : Offer} {k kind : Terminal} {v cs : List Char}

/-- A kind without a spelling of its own is kept only where nothing offered has the spelling. -/
lemma classify_settled (h : o.classify kind v = k) (hk : k.spelling? = none) :
    kind = k ∧ ∀ u, o u = true → u.spelling? ≠ some v := by
  unfold classify at h
  cases hf : Terminal.fixed.find? fun u => o u && u.spelling? == some v with
  | some u =>
    rw [hf, Option.getD_some] at h
    have hu := List.find?_some hf
    simp [h, hk] at hu
  | none =>
    rw [hf, Option.getD_none] at h
    refine ⟨h, fun u ho hu => ?_⟩
    have hnot := List.find?_eq_none.mp hf u (Terminal.mem_fixed hu)
    simp [ho, hu] at hnot

/-- A string, a word or a name is offered where it is read, and nothing offered there has its spelling. -/
lemma lexeme?_settled (h : o.lexeme? cs = some (.token k v)) (hk : k.spelling? = none) :
    o k = true ∧ ∀ u, o u = true → u.spelling? ≠ some v := by
  have hlexed : ∀ {kind : Terminal} {found : Option (List Char)},
      o.lexed? kind found = some (.token k v) → o k = true ∧ ∀ u, o u = true → u.spelling? ≠ some v := by
    intro kind found hl
    cases hkind : o kind with
    | false =>
      rw [lexed?_unoffered hkind] at hl
      cases hl
    | true =>
      obtain ⟨w, -, hw⟩ := lexed?_eq_some hl
      obtain ⟨hclass, rfl⟩ := Lexeme.token.inj hw
      obtain ⟨rfl, hfree⟩ := classify_settled hclass.symm hk
      exact ⟨hkind, hfree⟩
  unfold lexeme? at h
  simp only [Option.orElse_eq_orElse, Option.orElse_eq_or, Option.or_eq_some_iff] at h
  rcases h with h | ⟨-, h | ⟨-, h | ⟨-, h | ⟨-, h | ⟨-, h⟩⟩⟩⟩⟩
  · obtain ⟨w, -, hw⟩ := Option.map_eq_some_iff.mp h
    cases hw
  · exact hlexed h
  · exact hlexed h
  · exact hlexed h
  · obtain ⟨w, -, hw⟩ := Option.map_eq_some_iff.mp h
    cases hw
  · obtain ⟨t, w, -, hs, -, hw⟩ := fixed?_eq_some h
    cases hw
    rw [hk] at hs
    cases hs

end Offer

/-- Behind an opening parenthesis the keyword `stream` is offered. -/
lemma check_stream : ∀ r ∈ Rule.all, ∀ s ∈ r.stages, .token .openParen ∈ s.firsts →
    r.offerAt (s.after (.token .openParen)) (.keyword .kwStream) = true := by decide +kernel

/-- What is read behind a token is no word and no name that would be taken for a keyword there. -/
lemma Frame.Behind.settled {f : Frame} {a t : Token} {cs : List Char} (h : f.Behind (some a))
    (hl : f.offer.lexeme? cs = some (.token t.kind t.text)) : ¬ a.Misread t ∧ ¬ a.BareStream t := by
  constructor
  · rintro ⟨ha, ht, k, hk, hspelled⟩
    obtain ⟨hword, hfree⟩ := Offer.lexeme?_settled hl (by rw [ht]; rfl)
    rw [ht] at hword
    exact hfree (.keyword k) ((h.word_keyword hword k).mpr ⟨⟨a, rfl, ha⟩, hk⟩) (congrArg some hspelled)
  · rintro ⟨ha, ht, hspelled⟩
    obtain ⟨-, hfree⟩ := Offer.lexeme?_settled hl (by rw [ht]; rfl)
    obtain ⟨s, hs, hfirst, hrest⟩ := h
    rw [ha] at hfirst hrest
    have hstream := check_stream f.rule (Rule.mem_all _) s hs hfirst
    rw [← hrest, ← f.offer_eq] at hstream
    exact hfree _ hstream (congrArg some hspelled.symm)

namespace Reader

variable {r last next : Reader} {cs : List Char} {before : Option Token}

/-- A step of the reader shifts the token that it reads, if it reads one, and no word or name is taken for a
keyword there. -/
lemma accept_settled {l : Lexeme} (hn : Nested r.stack.top r.stack.below) (hb : r.stack.top.Behind before)
    (hl : r.stack.top.offer.lexeme? cs = some l) (ha : r.accept l = .ok next) :
    Nested next.stack.top next.stack.below ∧
      next.stack.top.Behind (Stack.lastOf before (tokensOf (l.marks r.position))) ∧
      Stack.Clear before (tokensOf (l.marks r.position)) ∧
      Stack.Marked before (tokensOf (l.marks r.position)) := by
  obtain ⟨-, hshift, -⟩ := accept_eq_ok ha
  cases l with
  | space v =>
    cases ha
    exact ⟨hn, Stack.lastOf_nil.symm ▸ hb, Stack.clear_nil, Stack.marked_nil⟩
  | comment v =>
    cases ha
    exact ⟨hn, Stack.lastOf_nil.symm ▸ hb, Stack.clear_nil, Stack.marked_nil⟩
  | token k v =>
    rw [Lexeme.marks, tokensOf_token] at hshift ⊢
    rw [List.foldlM_cons] at hshift
    obtain ⟨s, hs, hnil⟩ := Option.bind_eq_some_iff.mp hshift
    cases hnil
    obtain ⟨hnested, hbehind⟩ := hn.shiftInto hs
    have hread : Stack.lastOf before [⟨k, v, r.position⟩] = some ⟨k, v, r.position⟩ := by simp [Stack.lastOf]
    refine ⟨hnested, hread ▸ hbehind, ?_, ?_⟩
    · cases before with
      | none => exact .singleton _
      | some a => exact List.isChain_cons_cons.mpr ⟨(hb.settled (t := ⟨k, v, r.position⟩) hl).1, .singleton _⟩
    · cases before with
      | none => exact .singleton _
      | some a => exact List.isChain_cons_cons.mpr ⟨(hb.settled (t := ⟨k, v, r.position⟩) hl).2, .singleton _⟩

/-- Of the tokens that a run reads, none would be taken for a keyword behind the one before it. -/
theorem run_settled (hn : Nested r.stack.top r.stack.below) (hb : r.stack.top.Behind before)
    (h : r.run 0 cs = .ok last) :
    ∃ ts, (∀ t ∈ ts, t.kind.Spells t.text) ∧ ts.foldlM Stack.shift? r.stack = some last.stack ∧
      Stack.Clear before ts ∧ Stack.Marked before ts := by
  -- The induction is on the length, since a step takes a whole lexeme.
  induction hlen : cs.length using Nat.strong_induction_on generalizing cs r before with
  | _ n ih =>
    cases cs with
    | nil =>
      cases h
      exact ⟨[], by simp, rfl, Stack.clear_nil, Stack.marked_nil⟩
    | cons c cs =>
      obtain ⟨l, rest, next, hl, hcs, hf, ha, hrun⟩ := run_eq_ok h
      have hlt : rest.length < n := by
        have hsum := congrArg List.length hcs
        have hpos := List.length_pos_iff.mpr hf.ne_nil
        rw [List.length_append] at hsum
        omega
      obtain ⟨hnested, hbehind, hclear, hmarked⟩ := accept_settled hn hb hl ha
      obtain ⟨ts, hspelled, hstack, hclear', hmarked'⟩ := ih rest.length hlt hnested hbehind hrun rfl
      have hfirst : ∀ t ∈ tokensOf (l.marks r.position), t.kind.Spells t.text := by
        cases hf with
        | space _ _ => exact fun t ht => absurd ht List.not_mem_nil
        | comment _ => exact fun t ht => absurd ht List.not_mem_nil
        | token hk _ _ =>
          intro t ht
          obtain rfl := List.mem_singleton.mp ht
          exact hk
      refine ⟨tokensOf (l.marks r.position) ++ ts, fun t ht => ?_, ?_, ?_, ?_⟩
      · exact (List.mem_append.mp ht).elim (hfirst t) (hspelled t)
      · rw [List.foldlM_append, (accept_eq_ok ha).2.1]
        exact hstack
      · exact Stack.clear_append.mpr ⟨hclear, hclear'⟩
      · exact Stack.marked_append.mpr ⟨hmarked, hmarked'⟩

end Reader

/-- Of the tokens of an accepted text, none would be taken for a keyword behind the one before it. -/
theorem read_settled {cs : List Char} {t : Tree} {comments : List Comment} (h : read cs = .ok (t, comments)) :
    Stack.Clear none t.tokens ∧ Stack.Marked none t.tokens := by
  obtain ⟨r, hrun, hclose, -⟩ := read_eq_ok_iff.mp h
  have hbehind : Reader.start.stack.top.Behind none := ⟨rfl, rfl⟩
  obtain ⟨ts, hspelled, hstack, hclear, hmarked⟩ := Reader.run_settled (.root rfl rfl) hbehind hrun
  have hinit : Builds [Frame.opening .file] [] := ⟨by simp [Frame.sound_opening], rfl, rfl⟩
  obtain ⟨-, htokens, -⟩ := (Builds.shiftAll hinit hspelled hstack).closeInto hclose
  rw [htokens]
  exact ⟨hclear, hmarked⟩

end Stubsmith.Proto
