import Stubsmith.Proofs.Proto.Run

/-!
# The text before an error

A run that fails has read a part of the text before. Without the text behind it this part is read alike: what stands
behind a lexeme only tells where the lexeme ends, and it ends at the end of the text as well. A slash is the one
exception, since the next character may turn it into the beginning of a comment.
-/
namespace Stubsmith.Proto

variable {u v w rest more : List Char} {c : Char}

lemma takeWhile_cut {p : Char → Bool} (h : (v ++ (w ++ rest)).takeWhile p = v) : (v ++ w).takeWhile p = v := by
  induction v with
  | nil =>
    cases w with
    | nil => rfl
    | cons d w =>
      rw [List.nil_append, List.cons_append, List.takeWhile_cons] at h
      rw [List.nil_append, List.takeWhile_cons]
      split_ifs at h ⊢
      rfl
  | cons d v ih =>
    rw [List.cons_append, List.takeWhile_cons] at h ⊢
    split_ifs at h ⊢
    rw [ih (List.cons.inj h).2]

/-- A comment in a text is a comment of the text that goes on. -/
lemma comment?_eq_none_of_append (h : comment? (u ++ rest) = none) : comment? u = none := by
  by_contra hsome
  obtain ⟨v, hv⟩ := Option.ne_none_iff_exists'.mp hsome
  unfold comment? at hv
  split at hv
  · simp [comment?] at h
  · obtain ⟨x, hx, rfl⟩ := Option.map_eq_some_iff.mp hv
    obtain ⟨-, ⟨ys, rfl⟩, htail⟩ := blockCommentTail_spec hx
    simp [comment?, List.append_assoc, htail] at h
  · cases hv

lemma comment?_cut (h : comment? (v ++ (w ++ rest)) = some v) : comment? (v ++ w) = some v := by
  generalize hcs : v ++ (w ++ rest) = cs at h
  unfold comment? at h
  split at h
  · next cs =>
    obtain rfl := Option.some.inj h
    simp only [List.cons_append, List.cons.injEq, true_and] at hcs ⊢
    generalize hx : cs.takeWhile (· != '\n') = x at hcs ⊢
    subst hcs
    rw [comment?, takeWhile_cut hx]
  · obtain ⟨x, hx, rfl⟩ := Option.map_eq_some_iff.mp h
    obtain ⟨-, -, htail⟩ := blockCommentTail_spec hx
    simp [comment?, htail]
  · cases h

/-- A string in a text is a string of the text that goes on. -/
lemma string?_eq_none_of_append (h : string? (u ++ rest) = none) : string? u = none := by
  by_contra hsome
  obtain ⟨v, hv⟩ := Option.ne_none_iff_exists'.mp hsome
  obtain ⟨hs, ys, rfl⟩ := string?_spells hv
  rw [List.append_assoc, string?_append hs] at h
  cases h

/-- What stands behind the text does not make a comment of its last character. -/
def OpensNone (u rest : List Char) : Prop := u = ['/'] → ∀ d ∈ rest.head?, OpensNothing '/' d

lemma endsWord_append (h : OpensNone (c :: u) rest) : endsWord c (u ++ rest) = endsWord c u := by
  cases u with
  | cons d u => rfl
  | nil =>
    rw [Bool.eq_iff_iff, ← not_iff_not, Bool.not_eq_true, Bool.not_eq_true, endsWord_eq_false, endsWord_eq_false]
    refine and_congr_right fun _ => ⟨fun _ => by simp, fun _ d hd hc => ?_⟩
    subst hc
    exact h rfl d hd rfl

lemma wordRun_cut (hw : OpensNone w rest) (h : wordRun (v ++ (w ++ rest)) = v) : wordRun (v ++ w) = v := by
  induction v with
  | nil =>
    cases w with
    | nil => rfl
    | cons d w =>
      rw [List.nil_append, List.cons_append, wordRun, endsWord_append hw] at h
      rw [List.nil_append, wordRun]
      split_ifs at h ⊢
      rfl
  | cons d v ih =>
    rw [List.cons_append, wordRun] at h ⊢
    split_ifs at h with hends
    have hopens : endsWord d (v ++ w) = false := by
      rw [Bool.not_eq_true, endsWord_eq_false] at hends
      refine endsWord_eq_false.mpr ⟨hends.1, fun e he => hends.2 e ?_⟩
      rw [← List.append_assoc, List.head?_append, Option.mem_def.mp he]
      rfl
    rw [hopens, ih (List.cons.inj h).2]
    rfl

lemma word?_cut (hw : OpensNone w rest) (h : word? (v ++ (w ++ rest)) = some v) : word? (v ++ w) = some v := by
  obtain ⟨hrun, hne⟩ := nonempty?_eq_some.mp h
  exact nonempty?_eq_some.mpr ⟨wordRun_cut hw hrun, hne⟩

lemma word?_eq_none_of_append (hu : OpensNone u rest) (h : word? (u ++ rest) = none) : word? u = none := by
  cases u with
  | nil => rfl
  | cons c u =>
    rw [List.cons_append, word?, wordRun, endsWord_append hu] at h
    rw [word?, wordRun]
    split_ifs at h ⊢
    · rfl
    · cases h

lemma ident?_cut (h : ident? (v ++ (w ++ rest)) = some v) : ident? (v ++ w) = some v := by
  obtain ⟨c, v, rfl⟩ := List.exists_cons_of_ne_nil (ident?_spells h).1.ne_nil
  simp only [List.cons_append, ident?] at h ⊢
  split_ifs at h ⊢
  rw [takeWhile_cut (List.cons.inj (Option.some.inj h)).2]

lemma ident?_eq_none_of_append (h : ident? (u ++ rest) = none) : ident? u = none := by
  cases u with
  | nil => rfl
  | cons c u =>
    simp only [List.cons_append, ident?] at h ⊢
    split_ifs at h ⊢
    rfl

lemma space?_cut (h : space? (v ++ (w ++ rest)) = some v) : space? (v ++ w) = some v := by
  obtain ⟨hrun, hne⟩ := nonempty?_eq_some.mp h
  exact nonempty?_eq_some.mpr ⟨takeWhile_cut hrun, hne⟩

lemma space?_eq_none_of_append (h : space? (u ++ rest) = none) : space? u = none := by
  cases u with
  | nil => rfl
  | cons c u =>
    rw [List.cons_append, space?, List.takeWhile_cons] at h
    rw [space?, List.takeWhile_cons]
    split_ifs at h ⊢
    · cases h
    · rfl

namespace Offer

variable {o : Offer} {k : Terminal} {l : Lexeme} {found found' : Option (List Char)}

lemma lexed?_cut (h : o.lexed? k found = some l) (hfound : found = some l.text → found' = some l.text) :
    o.lexed? k found' = some l := by
  unfold lexed? at h ⊢
  split_ifs at h ⊢
  obtain ⟨v, hv, rfl⟩ := Option.map_eq_some_iff.mp h
  rw [hfound hv]
  rfl

lemma lexed?_eq_none_of (h : o.lexed? k found = none) (hfound : found = none → found' = none) :
    o.lexed? k found' = none := by
  unfold lexed? at h ⊢
  split_ifs at h ⊢
  · rw [hfound (Option.map_eq_none_iff.mp h)]
    rfl
  · rfl

/-- A slash that is read as a lexeme does not begin a comment. -/
lemma opensNone_lexeme (h : o.lexeme? (l.text ++ (w ++ rest)) = some l) : OpensNone (l.text ++ w) rest := by
  intro hslash d hd
  obtain ⟨_, _, hf⟩ := lexeme?_fronts h
  rcases List.append_eq_singleton_iff.mp hslash with ⟨hnil, -⟩ | ⟨htext, rfl⟩
  · exact absurd hnil hf.ne_nil
  rw [htext, List.nil_append, List.cons_append, List.nil_append] at h
  rcases lexeme?_cases h with ⟨v, hv, rfl⟩ | ⟨v, hv, rfl⟩ | ⟨k, v, rest', rfl, hsplit, -, hsolid⟩
  · obtain rfl : v = ['/'] := htext
    unfold comment? at hv
    split at hv
    · cases hv
    · simp at hv
    · cases hv
  · rw [space?_eq_none (by decide)] at hv
    cases hv
  · obtain rfl : v = ['/'] := htext
    obtain rfl : rest = rest' := (List.cons.inj hsplit).2
    cases hsolid with
    | quoted hs =>
      rw [List.cons_append, string?_eq_none (by decide) (by decide)] at hs
      cases hs
    | run _ _ hchain =>
      obtain ⟨ds, rfl⟩ := List.head?_eq_some_iff.mp hd
      exact (List.isChain_cons_cons.mp hchain).1

/-- Before the cut a lexeme is read that is read in the whole text. -/
theorem lexeme?_cut (h : o.lexeme? (l.text ++ (w ++ rest)) = some l) (hw : OpensNone w rest) :
    o.lexeme? (l.text ++ w) = some l := by
  have hall := opensNone_lexeme h
  unfold lexeme? at h ⊢
  simp only [Option.orElse_eq_orElse, Option.orElse_eq_or, Option.or_eq_some_iff, Option.map_eq_none_iff,
    Option.map_eq_some_iff] at h ⊢
  rcases h with ⟨v, hv, rfl⟩ | ⟨hcom, h⟩
  · exact Or.inl ⟨v, comment?_cut hv, rfl⟩
  rw [← List.append_assoc] at hcom
  refine Or.inr ⟨comment?_eq_none_of_append hcom, ?_⟩
  rcases h with h | ⟨hstr, h⟩
  · exact Or.inl (lexed?_cut h fun hv => string?_append (string?_spells hv).1 _)
  refine Or.inr ⟨lexed?_eq_none_of hstr fun hnone => string?_eq_none_of_append (List.append_assoc .. ▸ hnone), ?_⟩
  rcases h with h | ⟨hword, h⟩
  · exact Or.inl (lexed?_cut h fun hv => word?_cut hw hv)
  refine Or.inr ⟨lexed?_eq_none_of hword fun hnone => word?_eq_none_of_append hall (List.append_assoc .. ▸ hnone), ?_⟩
  rcases h with h | ⟨hident, h⟩
  · exact Or.inl (lexed?_cut h fun hv => ident?_cut hv)
  refine Or.inr ⟨lexed?_eq_none_of hident fun hnone => ident?_eq_none_of_append (List.append_assoc .. ▸ hnone), ?_⟩
  rcases h with ⟨v, hv, rfl⟩ | ⟨hspace, h⟩
  · exact Or.inl ⟨v, space?_cut hv, rfl⟩
  rw [← List.append_assoc] at hspace
  refine Or.inr ⟨space?_eq_none_of_append hspace, ?_⟩
  obtain ⟨t, v, ho, hv, -, rfl⟩ := fixed?_eq_some h
  exact fixed?_append ho hv w

end Offer

namespace Reader

variable {r last : Reader} {e : SyntaxError} {cs : List Char}

/-- The reader fails at the text: no lexeme that is offered stands at its front, or the token there is not taken. -/
inductive Halts (r : Reader) : List Char → SyntaxError → Prop
  | unread {c : Char} {cs : List Char} : r.stack.top.offer.lexeme? (c :: cs) = none → Halts r (c :: cs) (r.refuse c cs)
  | untaken {k : Terminal} {v rest : List Char} : r.stack.top.offer.lexeme? (v ++ rest) = some (.token k v) →
      r.stack.shift? ⟨k, v, r.position⟩ = none → Halts r (v ++ rest) (r.fail (.unexpectedToken v))

lemma halts_of_accept {l : Lexeme} (hlex : r.stack.top.offer.lexeme? (l.text ++ rest) = some l)
    (ha : r.accept l = .error e) : r.Halts (l.text ++ rest) e := by
  cases l with
  | space v => cases ha
  | comment v => cases ha
  | token k v =>
    simp only [accept] at ha
    split at ha
    · cases ha
    · next hshift =>
      cases ha
      exact .untaken hlex hshift

/-- A run that fails has read the text before the error as it reads this text alone. -/
theorem run_eq_error (h : r.run 0 cs = .error e) :
    ∃ u rest last, cs = u ++ rest ∧ r.run 0 u = .ok last ∧ last.Halts rest e := by
  -- Behind a lexeme that has been read, the cut is at a slash only if nothing goes on with a comment there.
  suffices hcut : ∃ u rest last, cs = u ++ rest ∧ OpensNone u rest ∧ r.run 0 u = .ok last ∧ last.Halts rest e by
    obtain ⟨u, rest, last, hcs, -, hrun, hhalts⟩ := hcut
    exact ⟨u, rest, last, hcs, hrun, hhalts⟩
  induction hn : cs.length using Nat.strong_induction_on generalizing cs r with
  | _ n ih =>
    cases cs with
    | nil => cases h
    | cons c cs =>
      have hbare : ∀ rest : List Char, OpensNone [] rest := fun rest hnil => by cases hnil
      cases hlex : r.stack.top.offer.lexeme? (c :: cs) with
      | none =>
        simp only [run, hlex, Except.error.injEq] at h
        subst h
        exact ⟨[], c :: cs, r, rfl, hbare _, rfl, .unread hlex⟩
      | some l =>
        obtain ⟨rest, hcs, hf⟩ := Offer.lexeme?_fronts hlex
        have hpos := List.length_pos_iff.mpr hf.ne_nil
        rw [hcs] at hlex h hn ⊢
        cases ha : r.accept l with
        | error e' =>
          rw [run_refused hf.ne_nil hlex ha, Except.error.injEq] at h
          subst h
          exact ⟨[], l.text ++ rest, r, rfl, hbare _, rfl, halts_of_accept hlex ha⟩
        | ok next =>
          rw [run_lexeme hf.ne_nil hlex ha] at h
          rw [List.length_append] at hn
          obtain ⟨u, rest, last, rfl, hopens, hrun, hhalts⟩ := ih rest.length (by omega) h rfl
          refine ⟨l.text ++ u, rest, last, (List.append_assoc ..).symm, Offer.opensNone_lexeme hlex, ?_, hhalts⟩
          rw [run_lexeme hf.ne_nil (Offer.lexeme?_cut hlex hopens) ha, hrun]

end Reader

end Stubsmith.Proto
