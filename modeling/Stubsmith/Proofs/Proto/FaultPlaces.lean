import Stubsmith.Proofs.Proto.Completion
import Stubsmith.Proofs.Proto.Cutting
import Stubsmith.Proto.Error

/-!
# Where a text goes wrong

The place of a syntax error is exact. A token or a character that is reported stands at the place, and the text before
it can still be continued to a proto file. Where the end of the text is reported, the whole text can be continued, and
the place is that of its last token.
-/
namespace Stubsmith.Proto

variable {u rest text : List Char} {e : SyntaxError}

/-- The line of the place behind the text, counted from one. -/
def lineBehind (u : List Char) : Nat := u.count '\n' + 1

/-- The column of the place behind the text, counted from one: the characters since the last line end. -/
def columnBehind (u : List Char) : Nat := (u.reverse.takeWhile (· != '\n')).length + 1

lemma Position.line_start_after (u : List Char) : (start.after u).line = lineBehind u := by
  rw [line_after, lineBehind, Nat.add_comm]
  rfl

lemma Position.column_start_after (u : List Char) : (start.after u).column = columnBehind u := by
  induction u using List.reverseRecOn with
  | nil => rfl
  | append_singleton u c ih =>
    rw [after_append, columnBehind, List.reverse_append, List.reverse_singleton, List.singleton_append]
    by_cases hc : c = '\n'
    · simp [after, next, hc]
    · have hnext : ((start.after u).after [c]).column = (start.after u).column + 1 := by simp [after, next, hc]
      rw [hnext, ih, columnBehind, List.takeWhile_cons_of_pos (by simpa using hc), List.length_cons]

/-- The text can be continued to a proto file, on a new line. -/
def Viable (u : List Char) : Prop := ∃ more tree, parse (String.ofList (u ++ '\n' :: more)) = .ok tree

/-- The token stands in the text behind `u`. In every proto file that continues the text on a new line it is the last
token that begins in the text. -/
structure LastToken (text u : List Char) (k : Token) : Prop where
  stands : ∃ w, text = u ++ (k.text ++ w)
  position : k.position = Position.start.after u
  last : ∀ more tree comments, read (text ++ '\n' :: more) = .ok (tree, comments) →
    ∃ ts us, tree.tokens = ts ++ k :: us ∧ ∀ t ∈ us, text.length ≤ t.position.offset

/-- The error names the place of its fault in the text. -/
inductive Located (text : List Char) : SyntaxError → Prop
  | token {u v w : List Char} {k : Terminal} : text = u ++ (v ++ w) → k.Spells v → Viable u →
      Located text ⟨.unexpectedToken v, lineBehind u, columnBehind u⟩
  | char {u w : List Char} {c : Char} : text = u ++ c :: w → Viable u →
      Located text ⟨.unexpectedChar c, lineBehind u, columnBehind u⟩
  | ending {u : List Char} {k : Token} : LastToken text u k → Viable text →
      Located text ⟨.unexpectedEnd, lineBehind u, columnBehind u⟩

/-- What has been read of a text can be continued. -/
lemma viable_of_run {last : Reader} (h : Reader.start.run 0 u = .ok last) : Viable u := by
  obtain ⟨more, r, tree, hrun, hclose⟩ := Reader.exists_continuation h
  refine ⟨more, _, parse_of_run (r := r) ?_ hclose⟩
  rw [Reader.run_newline h, hrun]

/-- Blanks and comments are read whatever is offered. -/
lemma Offer.lexeme?_eq_none {o : Offer} {cs : List Char} (h : o.lexeme? cs = none) :
    comment? cs = none ∧ space? cs = none := by
  simp only [lexeme?, Option.orElse_eq_orElse, Option.orElse_eq_or, Option.or_eq_none_iff,
    Option.map_eq_none_iff] at h
  exact ⟨h.1, h.2.2.2.2.1⟩

/-- Where the reader halts it reports the token or the character that stands there. -/
lemma Reader.Halts.fault {r : Reader} (h : r.Halts rest e) :
    (∃ k v w, rest = v ++ w ∧ Terminal.Spells k v ∧ e = r.fail (.unexpectedToken v)) ∨
      ∃ c w, rest = c :: w ∧ e = r.fail (.unexpectedChar c) := by
  cases h with
  | @unread c cs hnone =>
    obtain ⟨hcom, hspace⟩ := Offer.lexeme?_eq_none hnone
    unfold refuse
    cases hall : Offer.everything.lexeme? (c :: cs) with
    | none => exact Or.inr ⟨c, cs, rfl, rfl⟩
    | some l =>
      rcases Offer.lexeme?_cases hall with ⟨v, hv, -⟩ | ⟨v, hv, -⟩ | ⟨k, v, w, rfl, hsplit, hk, -⟩
      · rw [hcom] at hv
        cases hv
      · rw [hspace] at hv
        cases hv
      · exact Or.inl ⟨k, v, w, hsplit, hk, rfl⟩
  | @untaken k v w hlex hshift =>
    rcases Offer.lexeme?_cases hlex with ⟨x, -, hx⟩ | ⟨x, -, hx⟩ | ⟨k', x, w', hx, -, hk, -⟩
    · cases hx
    · cases hx
    · cases hx
      exact Or.inl ⟨k, v, w, rfl, hk, rfl⟩

lemma located_of_run_error (h : Reader.start.run 0 text = .error e) : Located text e := by
  obtain ⟨u, rest, last, rfl, hrun, hhalts⟩ := Reader.run_eq_error h
  have hviable := viable_of_run hrun
  have hposition : last.position = Position.start.after u := Reader.position_run hrun
  rcases hhalts.fault with ⟨k, v, w, rfl, hk, rfl⟩ | ⟨c, w, rfl, rfl⟩
  · rw [Reader.fail, hposition, Position.line_start_after, Position.column_start_after]
    exact .token rfl hk hviable
  · rw [Reader.fail, hposition, Position.line_start_after, Position.column_start_after]
    exact .char rfl hviable

/-- A token of a text stands where its position says. -/
lemma Scanned.place {p : Position} {cs : List Char} {ms : List Mark} (h : Scanned p cs ms) {t : Token}
    (ht : t ∈ tokensOf ms) : ∃ u w, cs = u ++ (t.text ++ w) ∧ t.position = p.after u := by
  induction h with
  | nil p => cases ht
  | @cons p l rest ms hf hrest ih =>
    rw [tokensOf_append, List.mem_append] at ht
    rcases ht with ht | ht
    · cases l with
      | space v => cases ht
      | comment v => cases ht
      | token k v =>
        rw [List.mem_singleton.mp ht]
        exact ⟨[], rest, rfl, rfl⟩
    · obtain ⟨u, w, hsplit, hposition⟩ := ih ht
      exact ⟨l.text ++ u, w, by rw [hsplit, List.append_assoc], by rw [hposition, Position.after_append]⟩

/-- At the start the file may end. -/
lemma close?_start : Reader.start.stack.close? ≠ none := by decide +kernel

/-- A file that continues a text has the tokens of the text and then others that stand behind it. -/
lemma tokens_continued {r : Reader} {ms : List Mark} {more : List Char} {tree : Tree} {comments : List Comment}
    (hrun : Reader.start.run 0 text = .ok r) (hms : ∀ t ∈ tokensOf ms, t.kind.Spells t.text)
    (hstack : (tokensOf ms).foldlM Stack.shift? Reader.start.stack = some r.stack)
    (hread : read (text ++ '\n' :: more) = .ok (tree, comments)) :
    ∃ us, tree.tokens = tokensOf ms ++ us ∧ ∀ t ∈ us, text.length ≤ t.position.offset := by
  obtain ⟨last, hmore, hclose, -⟩ := read_eq_ok_iff.mp hread
  rw [Reader.run_newline hrun] at hmore
  obtain ⟨ms', hms', hstack', -⟩ := Reader.run_scanned hmore
  have hbuilds := (Builds.start.shiftAll hms hstack).shiftAll hms'.spelled hstack'
  refine ⟨tokensOf ms', (hbuilds.closeInto hclose).2.1, fun t ht => ?_⟩
  have hle := hms'.le_offset (.token t) (mem_tokensOf.mp ht)
  rw [Reader.position_run hrun, Position.offset_after] at hle
  exact Nat.le_of_add_left_le hle

lemma located_of_finish_error {r : Reader} (hrun : Reader.start.run 0 text = .ok r) (h : r.finish = .error e) :
    Located text e := by
  obtain ⟨ms, (hms : Scanned .start text ms), hstack, -, hlast⟩ := Reader.run_scanned hrun
  unfold Reader.finish at h
  split at h
  · cases h
  next hclose =>
  cases h
  rcases List.eq_nil_or_concat (tokensOf ms) with hnil | ⟨ts, k, htokens⟩
  · -- Without a token the file could end.
    rw [hnil] at hstack
    rw [← Option.some.inj hstack] at hclose
    exact absurd hclose close?_start
  · rw [List.concat_eq_append] at htokens
    rw [htokens, List.getLast?_concat, Option.map_some, Option.getD_some] at hlast
    obtain ⟨u, w, hsplit, hposition⟩ := hms.place (t := k) (by simp [htokens])
    rw [hlast, hposition, Position.line_start_after, Position.column_start_after]
    refine .ending ⟨⟨w, hsplit⟩, hposition, fun more tree comments hread => ?_⟩ (viable_of_run hrun)
    obtain ⟨us, htree, hus⟩ := tokens_continued hrun hms.spelled hstack hread
    rw [htokens, List.append_assoc, List.singleton_append] at htree
    exact ⟨ts, us, htree, hus⟩

lemma located_of_read_error (h : read text = .error e) : Located text e := by
  unfold read at h
  cases hrun : Reader.start.run 0 text with
  | error e' =>
    simp only [hrun, bind, Except.bind, Except.error.injEq] at h
    exact h ▸ located_of_run_error hrun
  | ok r =>
    simp only [hrun, bind, Except.bind] at h
    cases hfinish : r.finish with
    | error e' =>
      simp only [hfinish, Except.error.injEq] at h
      exact h ▸ located_of_finish_error hrun hfinish
    | ok tree =>
      simp only [hfinish] at h
      cases h

/-- The place of every syntax error is exact. -/
theorem parseFrom_error_located {source : Option String} {text : String} {e : ParseError}
    (h : parseFrom source text = .error e) : ∃ s, e = ⟨source, .syntaxError s⟩ ∧ Located text.toList s := by
  unfold parseFrom parse at h
  cases hread : read text.toList with
  | error s =>
    simp only [hread, bind, Except.bind, Except.mapError, Except.error.injEq] at h
    exact ⟨s, h.symm, located_of_read_error hread⟩
  | ok result =>
    simp only [hread, bind, Except.bind, Except.mapError, pure, Except.pure] at h
    cases h

/-- The text is refused with this error, and the error names its place. -/
def RefusedAt (text : String) (s : SyntaxError) : Prop :=
  parseFrom none text = .error ⟨none, .syntaxError s⟩ ∧ Located text.toList s

lemma parseFrom_eq_error {source : Option String} {text : String} {s : SyntaxError}
    (h : (match parse text with
      | .error e => decide (e = s)
      | .ok _ => false) = true) : parseFrom source text = .error ⟨source, .syntaxError s⟩ := by
  unfold parseFrom
  cases hresult : parse text with
  | error e =>
    rw [hresult] at h
    rw [of_decide_eq_true h]
    rfl
  | ok tree =>
    rw [hresult] at h
    cases h

/-- A keyword behind a block in a block, a quote that is not closed, and a service that is not closed before a
comment. -/
theorem faultyTexts_refusedAt :
    RefusedAt "message M \x7b\n a \x7b\x7d message \x7d" ⟨.unexpectedToken "message".toList, 2, 7⟩ ∧
    RefusedAt "option /* \n\n */ \"a" ⟨.unexpectedChar '"', 3, 5⟩ ∧
    RefusedAt "service S\n \x7b // \x7d" ⟨.unexpectedEnd, 2, 2⟩ := by
  have hrefused : ∀ text s, parseFrom none text = .error ⟨none, .syntaxError s⟩ → RefusedAt text s := by
    intro text s h
    obtain ⟨s', hs, hlocated⟩ := parseFrom_error_located h
    cases hs
    exact ⟨h, hlocated⟩
  exact ⟨hrefused _ _ (parseFrom_eq_error (by decide +kernel)), hrefused _ _ (parseFrom_eq_error (by decide +kernel)),
    hrefused _ _ (parseFrom_eq_error (by decide +kernel))⟩

end Stubsmith.Proto
