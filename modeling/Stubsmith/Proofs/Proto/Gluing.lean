import Stubsmith.Proofs.Proto.Joining
import Stubsmith.Proofs.Proto.Lines

/-!
# The first word of a second text

At the start of a file a keyword is read wherever its letters stand, even if the next word is glued to it.
Behind a message, an enumeration or an extension words are offered, and there the keyword and what is glued to
it are one word. So a text that begins with such a word can be accepted alone and is refused there. Every other
text is read behind an accepted one as it is read alone.
-/
namespace Stubsmith.Proto

open Proto.Frame (opening)

variable {u v rest : List Char}

/-- The word at the front of a text, behind its first blanks and comments. -/
def firstWord (cs : List Char) : List Char := wordRun ((blanked cs).dropWhile isSpace)

/-- The text begins with a word that is no keyword. If it is accepted, the word begins with a keyword. -/
def Glued (cs : List Char) : Prop := firstWord cs ∉ [] :: Keyword.all.map fun k => k.spelling.toList

instance (cs : List Char) : Decidable (Glued cs) :=
  inferInstanceAs (Decidable (firstWord cs ∉ [] :: Keyword.all.map fun k => k.spelling.toList))

lemma firstWord_spaces (hv : ∀ c ∈ v, isSpace c = true) : firstWord (v ++ rest) = firstWord rest := by
  induction v with
  | nil => rfl
  | cons c v ih =>
    have hc := hv c (by simp)
    rw [← ih fun d hd => hv d (by simp [hd]), firstWord, firstWord, List.cons_append,
      blanked_cons (comment?_of_isSpace hc) (string?_of_isSpace hc), List.dropWhile_cons_of_pos hc]

lemma firstWord_comment (h : comment? (v ++ rest) = some v) : firstWord (v ++ rest) = firstWord rest := by
  rw [firstWord, blanked_comment h, List.dropWhile_append_of_pos isSpace_of_mem_spaced]
  rfl

lemma firstWord_token (hs : Solid rest v) (hspace : ∀ c ∈ v.head?, isSpace c = false) :
    firstWord (v ++ rest) = wordRun (v ++ rest) := by
  obtain ⟨c, w, rfl⟩ := List.exists_cons_of_ne_nil hs.ne_nil
  obtain ⟨ds, hds⟩ := @exists_blanked c (w ++ rest) hs.comment?_eq
  have hc : ¬ isSpace c = true := by simpa using hspace c rfl
  rw [firstWord, List.cons_append, hds, List.dropWhile_cons_of_neg hc, ← hds, wordRun_blanked]

lemma prefix_wordRun (hv : ∀ c ∈ v, isWordChar c = true ∧ c ≠ '/') : v <+: wordRun (v ++ rest) := by
  induction v with
  | nil => exact List.nil_prefix
  | cons c v ih =>
    have hc := hv c (by simp)
    have hends : endsWord c (v ++ rest) = false :=
      endsWord_eq_false.mpr ⟨hc.1, fun _ _ hslash => absurd hslash hc.2⟩
    rw [List.cons_append, wordRun, hends]
    exact (List.prefix_cons_inj c).mpr (ih fun d hd => hv d (by simp [hd]))

namespace Offer

variable {o : Offer} {k : Terminal}

lemma check_open : (∀ k ∈ Terminal.all, (opening .file).offer k = true → k ∈ Rule.statementStarts) ∧
    (opening .file).offer .string = false ∧ (opening .file).offer .word = false ∧
      (opening .file).offer .ident = false := by decide +kernel

/-- At the start of a file a keyword or a semicolon is read. -/
lemma lexeme?_start (h : (opening .file).offer.lexeme? u = some (.token k v)) :
    k ∈ Rule.statementStarts ∧ k.spelling? = some v := by
  obtain ⟨hstarts, hstring, hword, hident⟩ := check_open
  unfold lexeme? at h
  rw [lexed?_unoffered hstring, lexed?_unoffered hword, lexed?_unoffered hident] at h
  simp only [Option.orElse_eq_orElse, Option.orElse_eq_or, Option.none_or, Option.or_eq_some_iff] at h
  rcases h with h | ⟨-, h | ⟨-, h⟩⟩
  · obtain ⟨w, -, hw⟩ := Option.map_eq_some_iff.mp h
    cases hw
  · obtain ⟨w, -, hw⟩ := Option.map_eq_some_iff.mp h
    cases hw
  · obtain ⟨t, w, ho, hs, -, hw⟩ := fixed?_eq_some h
    cases hw
    exact ⟨hstarts k (Terminal.mem_all k) ho, hs⟩

lemma prefix_of_start (hk : k ∈ Rule.statementStarts) (hv : k.spelling? = some v)
    (hne : wordRun (v ++ rest) ≠ []) : v <+: wordRun (v ++ rest) := by
  have hall : ∀ k ∈ Rule.statementStarts, k = .semicolon ∨
      ((k.spelling?.getD []).all fun c => isWordChar c && c != '/') = true := by decide +kernel
  rcases hall k hk with rfl | hword
  · cases hv
    exact absurd rfl hne
  · rw [hv, Option.getD_some, List.all_eq_true] at hword
    exact prefix_wordRun fun c hc => by simpa using hword c hc

/-- Where a fixed text stands and names are not offered, a word is read or else the fixed text. -/
lemma lexeme?_fixed (hident : o .ident = false) (hk : o k = true) (hv : k.spelling? = some v) :
    o.lexeme? (v ++ rest) = (o.lexed? .word (word? (v ++ rest))).or (some (.token k v)) := by
  have hsolid : Solid rest v := .of_fixed hv
  have hstr : string? (v ++ rest) = none := by
    obtain ⟨c, w, rfl⟩ := List.exists_cons_of_ne_nil hsolid.ne_nil
    have hplain := Terminal.isPlain_of_spelling hv c (by simp)
    simp only [isPlain, Bool.not_eq_true', Bool.or_eq_false_iff, beq_eq_false_iff_ne] at hplain
    exact string?_eq_none hplain.1.2 hplain.2
  have hblank : space? (v ++ rest) = none := by
    have hspace := (Terminal.Spells.fixed hv).head_isSpace
    obtain ⟨c, w, rfl⟩ := List.exists_cons_of_ne_nil hsolid.ne_nil
    exact space?_eq_none (hspace c rfl)
  unfold lexeme?
  rw [hsolid.comment?_eq, hstr, hblank, lexed?_none, lexed?_unoffered hident, fixed?_append hk hv]
  simp

section Start

variable (hk : k ∈ Rule.statementStarts) (hv : k.spelling? = some v)
include hk hv

/-- A word that is a keyword is the beginning of the statement itself. -/
lemma wordRun_of_keyword (hmem : wordRun (v ++ rest) ∈ Keyword.all.map fun k => k.spelling.toList) :
    wordRun (v ++ rest) = v := by
  obtain ⟨kw, -, hkw⟩ := List.mem_map.mp hmem
  have hne : wordRun (v ++ rest) ≠ [] := by
    rw [← hkw]
    exact (Terminal.keyword_spells_ident kw).ne_nil
  have hsame : k = .keyword kw := Terminal.eq_of_prefix hv (congrArg some hkw) (prefix_of_start hk hv hne)
  rw [hsame] at hv
  rw [← hkw]
  exact Option.some.inj hv

/-- A word that is more than the beginning of a statement is no fixed text. -/
lemma classify_of_start (hne : wordRun (v ++ rest) ≠ [])
    (hfree : wordRun (v ++ rest) ∉ Keyword.all.map fun k => k.spelling.toList) :
    o.classify .word (wordRun (v ++ rest)) = .word := by
  refine classify_free fun t _ ht => hfree ?_
  rw [← Terminal.eq_of_prefix hv ht (prefix_of_start hk hv hne)] at ht
  have hall : ∀ k ∈ Rule.statementStarts, k = .semicolon ∨
      k.spelling?.getD [] ∈ Keyword.all.map fun k => k.spelling.toList := by decide +kernel
  rcases hall k hk with rfl | hkey
  · cases hv
    exact absurd rfl hne
  · rwa [ht] at hkey

end Start

/-- Where names are not offered but the beginnings of statements are, the same token is read, unless words are
offered and the token is a part of one. -/
lemma lexeme?_of_start (hident : o .ident = false) (hstarts : ∀ k ∈ Rule.statementStarts, o k = true)
    (h : (opening .file).offer.lexeme? (v ++ rest) = some (.token k v)) :
    (¬ (o .word = true ∧ Glued (v ++ rest)) → o.lexeme? (v ++ rest) = some (.token k v)) ∧
      (o .word = true ∧ Glued (v ++ rest) →
        o.lexeme? (v ++ rest) = some (.token .word (wordRun (v ++ rest)))) := by
  obtain ⟨hk, hv⟩ := lexeme?_start h
  have hsolid : Solid rest v := .of_fixed hv
  have hglued : Glued (v ++ rest) ↔
      wordRun (v ++ rest) ∉ [] :: Keyword.all.map fun k => k.spelling.toList := by
    rw [Glued, firstWord_token hsolid (Terminal.Spells.fixed hv).head_isSpace]
  rw [lexeme?_fixed hident (hstarts k hk) hv, hglued]
  refine ⟨fun hkeep => ?_, fun hboth => ?_⟩
  · cases hword : o .word with
    | false => rw [lexed?_unoffered hword, Option.none_or]
    | true =>
      simp only [hword, true_and, not_not] at hkeep
      rcases List.mem_cons.mp hkeep with hnil | hkey
      · rw [word?, hnil, show nonempty? [] = none from rfl, lexed?_none, Option.none_or]
      · rw [word?, nonempty?_eq_some.mpr ⟨wordRun_of_keyword hk hv hkey, hsolid.ne_nil⟩, lexed?_some hword,
          classify_fixed (hstarts k hk) hv]
        rfl
  · obtain ⟨hword, hglue⟩ := hboth
    rw [List.mem_cons, not_or] at hglue
    rw [word?, nonempty?_eq_some.mpr ⟨rfl, hglue.1⟩, lexed?_some hword, classify_of_start hk hv hglue.1 hglue.2]
    rfl

end Offer

section Second

variable {n m : Nat} {items more : List Tree} {kept : List Comment} {r r' next last : Reader}

/-- The first reader is before its first token. The second reads the same text at another place, behind the
statements `items` and the comments `kept`. -/
structure Waits (n m : Nat) (items : List Tree) (kept : List Comment) (r r' : Reader) : Prop where
  fresh : r.stack = ⟨opening .file, []⟩
  position : r'.position = r.position.moved n m
  nested : Nested r'.stack.top r'.stack.below
  closed : Stack.closeInto r'.stack.top r'.stack.below = some (.node .file items)
  comments : r'.comments = r.comments.map (Comment.moved n m) ++ kept

namespace Waits

/-- Behind a statement names are not offered, the beginnings of statements are, and words are if it ends with a
block. -/
lemma offers (h : Waits n m items kept r r') : r'.stack.top.offer .ident = false ∧
    (∀ k ∈ Rule.statementStarts, r'.stack.top.offer k = true) ∧
      (r'.stack.top.offer .word = true ↔ r'.stack.top.rule = .block) :=
  check_ends _ (h.nested.mem_spine h.closed) _ h.nested.stage (Stack.closeInto_nullable h.closed)

lemma pass (h : Waits n m items kept r r') {t : Token} (ht : t.kind ≠ .dot) :
    r'.stack.shift? t = Stack.shiftInto t ⟨.file, Rule.file.shape, items.reverse⟩ [] :=
  h.nested.pass h.closed ht

/-- The first token is shifted alike. -/
lemma shift (h : Waits n m items kept r r') {t : Token} {s : Stack} (ht : t.kind ≠ .dot)
    (hs : r.stack.shift? t = some s) : ∃ s', r'.stack.shift? (t.moved n m) = some s' ∧
      Over n m items.reverse s.top s.below s'.top s'.below := by
  have hmoved : (t.moved n m).kind ≠ .dot := ht
  rw [h.pass hmoved]
  rw [h.fresh] at hs
  exact (Over.root (opening .file)).shift hs

/-- A word is refused. -/
lemma refuses (h : Waits n m items kept r r') : ∃ e, r'.accept (.token .word v) = .error e := by
  have hnone : r'.stack.shift? ⟨.word, v, r'.position⟩ = none := by
    rw [h.pass (by simp), Stack.shiftInto]
    rfl
  refine ⟨r'.fail (.unexpectedToken v), ?_⟩
  rw [Reader.accept, hnone]

lemma accept (h : Waits n m items kept r r') {k : Terminal} (hk : k ∈ Rule.statementStarts)
    (ha : r.accept (.token k v) = .ok next) :
    ∃ next', r'.accept (.token k v) = .ok next' ∧ Trails n m items.reverse kept next next' := by
  have hdot : k ≠ .dot := by
    rintro rfl
    exact absurd hk (by decide)
  simp only [Reader.accept] at ha ⊢
  split at ha
  · next s hs =>
    cases ha
    obtain ⟨s', hs', hover⟩ := h.shift hdot hs
    have hshift : r'.stack.shift? ⟨k, v, r'.position⟩ = some s' := by
      rw [h.position]
      exact hs'
    rw [hshift]
    refine ⟨_, rfl, ?_, hover, h.comments⟩
    rw [h.position]
    exact Position.after_moved _ _
  · cases ha

lemma space (h : Waits n m items kept r r') (w : List Char) :
    Waits n m items kept { r with position := r.position.after w } { r' with position := r'.position.after w } := by
  refine ⟨h.fresh, ?_, h.nested, h.closed, h.comments⟩
  rw [h.position]
  exact Position.after_moved _ _

lemma comment (h : Waits n m items kept r r') (w : List Char) : Waits n m items kept
    { r with position := r.position.after w, comments := ⟨w, r.position⟩ :: r.comments }
    { r' with position := r'.position.after w, comments := ⟨w, r'.position⟩ :: r'.comments } := by
  refine ⟨h.fresh, ?_, h.nested, h.closed, ?_⟩
  · rw [h.position]
    exact Position.after_moved _ _
  · rw [h.comments, h.position]
    rfl

/-- The second text is read as it is read alone, unless it begins with a word where words are offered. Then it
is refused. -/
theorem run (h : Waits n m items kept r r') (hr : r.run 0 u = .ok last)
    (hlast : last.stack.close? = some (.node .file more)) :
    (¬ (r'.stack.top.offer .word = true ∧ Glued u) → ∃ last', r'.run 0 u = .ok last' ∧
        last'.stack.close? = some (.node .file (items ++ more.map (Tree.moved n m))) ∧
        last'.comments = last.comments.map (Comment.moved n m) ++ kept) ∧
      (r'.stack.top.offer .word = true ∧ Glued u → ∃ e, r'.run 0 u = .error e) := by
  induction hn : u.length using Nat.strong_induction_on generalizing u r r' with
  | _ l ih =>
    subst hn
    cases u with
    | nil =>
      cases hr
      rw [h.fresh] at hlast
      cases hlast
      refine ⟨fun _ => ⟨r', rfl, h.closed.trans ?_, h.comments⟩, fun hboth => absurd hboth.2 (by decide)⟩
      exact congrArg (fun cs => some (Tree.node .file cs)) (List.append_nil items).symm
    | cons c u =>
      obtain ⟨l, rest, next, hlex, hcs, hf, ha, hrun⟩ := Reader.run_eq_ok hr
      have hpos := List.length_pos_iff.mpr hf.ne_nil
      have hlt : rest.length < (l.text ++ rest).length := by
        rw [List.length_append]
        omega
      rw [hcs] at hlex ih ⊢
      cases hf with
      | @space w _ hw =>
        cases ha
        have hrest := ih rest.length hlt (h.space w) hrun rfl
        rwa [Lexeme.text, Reader.run_spaces hw, Glued, firstWord_spaces hw]
      | @comment w hc =>
        cases ha
        have hrest := ih rest.length hlt (h.comment w) hrun rfl
        rwa [Lexeme.text, Reader.run_comment hc, Glued, firstWord_comment hc]
      | @token k w hk _ _ =>
        have hoffers := h.offers
        rw [h.fresh] at hlex
        obtain ⟨hsame, hword⟩ := Offer.lexeme?_of_start hoffers.1 hoffers.2.1 hlex
        constructor
        · intro hkeep
          obtain ⟨next', ha', htrails⟩ := h.accept (Offer.lexeme?_start hlex).1 ha
          obtain ⟨last', hrun', hend⟩ := htrails.run hrun
          refine ⟨last', ?_, ?_, hend.comments⟩
          · exact (Reader.run_lexeme (l := .token k w) hk.ne_nil (hsame hkeep) ha').trans hrun'
          · rw [← List.reverse_reverse items]
            exact hend.stack.close hlast
        · intro hglued
          have hlex' := hword hglued
          generalize wordRun ((Lexeme.token k w).text ++ rest) = x at hlex'
          obtain ⟨rest', hrest, hfront⟩ := Offer.lexeme?_fronts hlex'
          obtain ⟨e, he⟩ := h.refuses
          refine ⟨e, ?_⟩
          rw [hrest] at hlex' ⊢
          exact Reader.run_refused hfront.ne_nil hlex' he

end Waits

end Second

lemma Position.after_newline (a : List Char) :
    (Position.start.after a).after ['\n'] = Position.start.moved (a.length + 1) (a.count '\n' + 1) := by
  have hnext : ∀ p : Position, p.after ['\n'] = ⟨p.offset + 1, p.line + 1, 1⟩ := fun _ => rfl
  rw [hnext, offset_after, line_after, moved]
  simp only [start, Position.mk.injEq, and_true]
  omega

/-- At the end of a file the innermost open node is a block if and only if the last statement ends with one. -/
lemma block_iff_of_shiftAll {ts : List Token} {s : Stack} {items : List Tree}
    (hs : ts.foldlM Stack.shift? ⟨opening .file, []⟩ = some s) (hc : s.close? = some (.node .file items)) :
    s.top.rule = .block ↔ EndsInBlock items := by
  obtain ⟨hnested, hbehind⟩ := nested_shiftAll hs
  cases hlast : ts.getLast? with
  | some t =>
    rw [hlast] at hbehind
    exact hnested.block_iff hbehind hc
  | none =>
    rw [List.getLast?_eq_none_iff] at hlast
    subst hlast
    cases hs
    cases hc
    simp [opening, EndsInBlock]

section Texts

variable {a b : List Char} {items more : List Tree} {comments comments' : List Comment}

/-- The statements of a second text come behind those of the first, unless the first ends with a block and the
second begins with a word that is no keyword. Then the second is refused. -/
theorem read_append (ha : read a = .ok (.node .file items, comments))
    (hb : read b = .ok (.node .file more, comments')) :
    (¬ (EndsInBlock items ∧ Glued b) → read (a ++ '\n' :: b) =
        .ok (.node .file (items ++ more.map (Tree.moved (a.length + 1) (a.count '\n' + 1))),
          comments ++ comments'.map (Comment.moved (a.length + 1) (a.count '\n' + 1)))) ∧
      (EndsInBlock items ∧ Glued b → ∃ e, read (a ++ '\n' :: b) = .error e) := by
  obtain ⟨r, hr, hclose, rfl⟩ := read_eq_ok_iff.mp ha
  obtain ⟨last, hlast, hend, rfl⟩ := read_eq_ok_iff.mp hb
  obtain ⟨ms, -, hstack, -⟩ := Reader.run_scanned hr
  have hnewline : ∀ c ∈ ['\n'], isSpace c = true := List.forall_mem_singleton.mpr rfl
  have hrun : Reader.start.run 0 (a ++ '\n' :: b) =
      { r with position := r.position.after ['\n'] }.run 0 b := by
    rw [Reader.run_newline hr]
    exact Reader.run_spaces hnewline
  have hwaits : Waits (a.length + 1) (a.count '\n' + 1) items r.comments .start
      { r with position := r.position.after ['\n'] } := by
    refine ⟨rfl, ?_, (nested_shiftAll hstack).1, hclose, rfl⟩
    rw [Reader.position_run hr]
    exact Position.after_newline a
  have hword : r.stack.top.offer .word = true ↔ EndsInBlock items :=
    hwaits.offers.2.2.trans (block_iff_of_shiftAll hstack hclose)
  obtain ⟨hok, herror⟩ := hwaits.run hlast hend
  rw [hword] at hok herror
  refine ⟨fun hfree => ?_, fun hglued => ?_⟩
  · obtain ⟨last', hlast', hclose', hcomments⟩ := hok hfree
    refine read_eq_ok_iff.mpr ⟨last', hrun.trans hlast', hclose', ?_⟩
    rw [hcomments, List.reverse_append, List.map_reverse]
  · obtain ⟨e, he⟩ := herror hglued
    refine ⟨e, ?_⟩
    rw [read, hrun, he]
    rfl

/-- The statements stand in the text. -/
lemma stop_le_of_read {t : Tree} (h : read a = .ok (.node .file items, comments)) (ht : t ∈ items) :
    t.stop ≤ a.length := by
  obtain ⟨_, ms, _, hms, hsound, htokens, -⟩ := read_sound h
  obtain ⟨k, hk, hstop⟩ := Tree.exists_stop
    ((hsound.child ht).derives.tokens_ne_nil (hsound.derives.child_ne_file ht))
  have hmem : .token k ∈ ms := mem_tokensOf.mp (htokens ▸ Tree.mem_tokens_of_child ht hk)
  have hle : k.stop ≤ 0 + a.length := hms.stop_le hmem
  omega

lemma offset_le_of_read {c : Comment} {t : Tree} (h : read a = .ok (t, comments)) (hc : c ∈ comments) :
    c.position.offset ≤ a.length := by
  obtain ⟨_, ms, -, hms, -, -, rfl⟩ := read_sound h
  have hle := hms.stop_le (mem_commentsOf.mp hc)
  simp only [Mark.stop, Mark.offset, Mark.position, Position.start] at hle
  omega

end Texts

/-- The last statement of the file is a message, an enumeration or an extension. -/
def Node.EndsInBlock (n : Node) : Prop :=
  ∃ d ∈ n.children.getLast?, d.kind = Rule.definition.name ∧
    ∃ e ∈ d.children.getLast?, ∃ r ∈ Rule.blocked, e.kind = r.name

lemma endsInBlock_toNode {items : List Tree} {comments : List Comment} :
    ((Tree.node .file items).toNode comments).EndsInBlock ↔ EndsInBlock items := by
  have hchildren : ∀ r cs, r ≠ .serviceDef →
      ((Tree.node r cs).toNode comments).children.getLast? = cs.getLast?.map (Tree.toNode comments) := by
    intro r cs hr
    rw [Tree.toNode_of_ne hr, Node.children, List.getLast?_map]
  unfold Node.EndsInBlock EndsInBlock
  rw [hchildren .file items (by decide)]
  constructor
  · rintro ⟨d, hd, hkind, e, he, r, hr, hname⟩
    obtain ⟨i, hi, rfl⟩ := Option.map_eq_some_iff.mp hd
    rw [Tree.kind_toNode] at hkind
    have hpiece := Piece.eq_rule_of_name hkind
    cases i with
    | leaf k => cases hpiece
    | node r' cs =>
      cases hpiece
      rw [hchildren _ cs (by decide)] at he
      obtain ⟨c, hc, rfl⟩ := Option.map_eq_some_iff.mp he
      rw [Tree.kind_toNode] at hname
      exact ⟨cs, c, r, hi, hc, Piece.eq_rule_of_name hname, hr⟩
  · rintro ⟨cs, c, r, hi, hc, hpiece, hr⟩
    refine ⟨_, Option.map_eq_some_iff.mpr ⟨_, hi, rfl⟩, Tree.kind_toNode, c.toNode comments, ?_, r, hr, ?_⟩
    · rw [hchildren _ cs (by decide), hc]
      rfl
    · rw [Tree.kind_toNode, hpiece]
      rfl

section Trees

variable {a b : String} {s t : Node}

/-- Two accepted texts with a line end between them are accepted, and the tree has the statements of both, unless
the first ends with a block and the second begins with a word that is no keyword. Then they are refused. -/
theorem parse_append (ha : parse a = .ok s) (hb : parse b = .ok t) :
    (¬ (s.EndsInBlock ∧ Glued b.toList) → ∃ n, parse (a ++ "\n" ++ b) = .ok n ∧
        n.children = s.children ++ t.children.map (Node.lowered (a.toList.count '\n' + 1))) ∧
      (s.EndsInBlock ∧ Glued b.toList → ∃ e, parse (a ++ "\n" ++ b) = .error e) := by
  obtain ⟨u, comments, hu, rfl⟩ := parse_eq_ok_iff.mp ha
  obtain ⟨v, comments', hv, rfl⟩ := parse_eq_ok_iff.mp hb
  obtain ⟨items, -, rfl, -, -, -, -⟩ := read_sound hu
  obtain ⟨more, -, rfl, -, hsecond, -, -⟩ := read_sound hv
  have htext : (a ++ "\n" ++ b).toList = a.toList ++ '\n' :: b.toList := by simp
  obtain ⟨hok, herror⟩ := read_append hu hv
  rw [endsInBlock_toNode]
  refine ⟨fun hfree => ?_, fun hglued => ?_⟩
  · have hread := hok hfree
    refine ⟨_, parse_eq_ok_iff.mpr ⟨_, _, htext ▸ hread, rfl⟩, ?_⟩
    obtain ⟨_, -, -, -, hsound, -, -⟩ := read_sound hread
    rw [Tree.toNode_of_ne (by decide), Tree.toNode_of_ne (by decide), Tree.toNode_of_ne (by decide)]
    simp only [Node.children, List.map_append, List.map_map]
    congr 1
    · refine List.map_congr_left fun i hi => (hsound.child (by simp [hi])).toNode_early fun c hc => ?_
      obtain ⟨d, -, rfl⟩ := List.mem_map.mp hc
      have hle := stop_le_of_read hu hi
      rw [Comment.offset_moved]
      omega
    · refine List.map_congr_left fun i hi => ?_
      have hmoved : i.moved (a.toList.length + 1) (a.toList.count '\n' + 1) ∈
          items ++ more.map (Tree.moved (a.toList.length + 1) (a.toList.count '\n' + 1)) :=
        List.mem_append_right _ (List.mem_map_of_mem hi)
      have hderives := hsecond.derives.split.2 i hi
      refine ((hsound.child hmoved).toNode_late fun c hc => ?_).trans (Tree.toNode_moved hderives)
      have hle := offset_le_of_read hu hc
      rw [Tree.start_moved (hderives.tokens_ne_nil (hsecond.derives.child_ne_file hi))]
      omega
  · obtain ⟨e, he⟩ := herror hglued
    refine ⟨e, ?_⟩
    rw [parse, htext, he]
    rfl

end Trees

end Stubsmith.Proto
