import Stubsmith.Proofs.Proto.Weaving

/-!
# Lines

The line of a place in a text is one more than the number of newlines before the place. The reader
gives each mark the line on which the mark begins. No token holds a newline, so a tree ends on the line
of its last token; and no comment begins inside a token.
-/
namespace Stubsmith.Proto

/-- The line of the place that has `n` characters of the text before it. -/
def lineAt (cs : List Char) (n : Nat) : Nat := 1 + (cs.take n).count '\n'

lemma QuoteTail.newline_not_mem {q : Char} {cs : List Char} (h : QuoteTail q cs) (hq : q ≠ '\n') :
    '\n' ∉ cs := by
  induction h with
  | close => simpa using hq.symm
  | plain _ _ hc _ ih => simpa using ⟨hc.symm, ih⟩
  | escaped hc _ ih => simpa using ⟨hc.symm, ih⟩

/-- No lexeme holds a newline. -/
lemma Terminal.Spells.newline_not_mem {t : Terminal} {v : List Char} (h : t.Spells v) : '\n' ∉ v := by
  have hword : ∀ c, isWordChar c = true → c ≠ '\n' := by
    rintro c hc rfl
    exact absurd hc (by decide)
  cases h with
  | fixed hv =>
    have hall : ∀ t ∈ Terminal.fixed, '\n' ∉ t.spelling?.getD [] := by decide +kernel
    have ht := hall t (Terminal.mem_fixed hv)
    rwa [hv, Option.getD_some] at ht
  | @ident c cs hc hcs =>
    intro hmem
    have hrest : isIdentRest '\n' = true := by
      rcases List.mem_cons.mp hmem with rfl | hmem
      · exact isIdentRest_of_isIdentStart hc
      · exact hcs _ hmem
    exact absurd hrest (by decide)
  | @string q cs hq htail =>
    have hne : q ≠ '\n' := by
      rcases hq with rfl | rfl
      · decide
      · decide
    simpa using ⟨hne.symm, htail.newline_not_mem hne⟩
  | word _ hall _ => exact fun hmem => hword _ (hall _ hmem) rfl

namespace Scanned

variable {p : Position} {cs : List Char} {ms : List Mark} {m : Mark} {k : Token} {c : Comment}

/-- A mark stands in the text where its position says. -/
lemma stands (h : Scanned p cs ms) (hm : m ∈ ms) : ∃ before behind, cs = before ++ (m.text ++ behind) ∧
    m.offset = p.offset + before.length ∧ m.position.line = p.line + before.count '\n' := by
  induction h with
  | nil => cases hm
  | @cons p l rest ms hf hrest ih =>
    rcases List.mem_append.mp hm with hm | hm
    · cases l with
      | space v => cases hm
      | comment v =>
        rw [List.mem_singleton.mp hm]
        exact ⟨[], rest, rfl, rfl, rfl⟩
      | token k v =>
        rw [List.mem_singleton.mp hm]
        exact ⟨[], rest, rfl, rfl, rfl⟩
    · obtain ⟨before, behind, rfl, hoffset, hline⟩ := ih hm
      rw [Position.offset_after] at hoffset
      rw [Position.line_after] at hline
      refine ⟨l.text ++ before, behind, (List.append_assoc _ _ _).symm, ?_, ?_⟩
      · rw [List.length_append]
        omega
      · rw [List.count_append]
        omega

/-- A mark ends before the text does. -/
lemma stop_le (h : Scanned p cs ms) (hm : m ∈ ms) : m.stop ≤ p.offset + cs.length := by
  obtain ⟨before, behind, rfl, hoffset, -⟩ := h.stands hm
  rw [Mark.stop, List.length_append, List.length_append]
  omega

/-- The line of a mark is the line on which it begins. -/
lemma lineAt_offset (h : Scanned .start cs ms) (hm : m ∈ ms) : lineAt cs m.offset = m.position.line := by
  obtain ⟨before, behind, rfl, hoffset, hline⟩ := h.stands hm
  have hlen : m.offset = before.length := hoffset.trans (Nat.zero_add _)
  rw [lineAt, hlen, List.take_left, hline]
  rfl

/-- A token ends on the line on which it begins. -/
lemma lineAt_stop (h : Scanned .start cs ms) (hk : k ∈ tokensOf ms) :
    lineAt cs k.stop = k.position.line := by
  have hmem := mem_tokensOf.mp hk
  obtain ⟨before, behind, hcs, hoffset, hline⟩ := h.stands hmem
  have hstop : k.stop = (before ++ k.text).length := by
    have hlen : k.position.offset = before.length := hoffset.trans (Nat.zero_add _)
    rw [Token.stop, hlen, List.length_append]
  have htext : cs = (before ++ k.text) ++ behind := by
    rw [hcs, List.append_assoc]
    rfl
  have hcount : k.text.count '\n' = 0 := List.count_eq_zero.mpr (h.spelled k hk).newline_not_mem
  rw [lineAt, hstop, htext, List.take_left, List.count_append, hcount, Nat.add_zero]
  exact hline.symm

/-- No comment begins inside a token. -/
lemma outside_token (h : Scanned p cs ms) (hk : k ∈ tokensOf ms) (hc : c ∈ commentsOf ms)
    (hle : k.position.offset ≤ c.position.offset) : k.stop ≤ c.position.offset := by
  let apart (a b : Mark) : Prop := a.stop ≤ b.offset ∨ b.stop ≤ a.offset
  have hsymm : Std.Symm apart := ⟨fun _ _ hab => hab.symm⟩
  have hapart : apart (.token k) (.comment c) :=
    (h.ordered.imp Or.inl : ms.Pairwise apart).forall (mem_tokensOf.mp hk) (mem_commentsOf.mp hc)
      (by simp)
  have hpos := List.length_pos_iff.mpr (h.comment_ne_nil c hc)
  rcases hapart with hstop | hstop
  · exact hstop
  · -- The comment cannot end before the token begins, since it begins behind that place.
    have hend : c.position.offset + c.text.length ≤ k.position.offset := hstop
    omega

end Scanned

/-- A tree ends on the line of its last token. -/
lemma Tree.lastLine_eq {cs : List Char} {ms : List Mark} {t : Tree} (h : Scanned .start cs ms)
    (ht : ∀ k ∈ t.tokens, k ∈ tokensOf ms) (hne : t.tokens ≠ []) :
    t.lastLine = some (lineAt cs t.stop) := by
  have hlast := List.getLast?_eq_some_getLast hne
  have hline := h.lineAt_stop (ht _ (List.getLast_mem hne))
  simp [lastLine, stop, hlast, hline]

end Stubsmith.Proto
