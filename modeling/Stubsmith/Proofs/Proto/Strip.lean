import Stubsmith.Proofs.Proto.Lexeme

/-!
# Texts without blanks and comments

`strip` deletes the blanks and the comments of a text in one scan that knows nothing of the grammar.
Whatever lexeme an offer lets the reader take, the scan treats it alike: it drops the blanks and the
comments that the reader skips and copies the tokens that the reader takes.
-/
namespace Stubsmith.Proto

/-- The text without its blanks and comments, the first `skip` characters left out. Strings are copied
whole, so nothing inside them is a blank or a comment. -/
def stripFrom : Nat → List Char → List Char
  | _, [] => []
  | skip + 1, _ :: cs => stripFrom skip cs
  | 0, c :: cs =>
    match comment? (c :: cs), string? (c :: cs) with
    | some t, _ => stripFrom (t.length - 1) cs
    | none, some t => t ++ stripFrom (t.length - 1) cs
    | none, none => if isSpace c then stripFrom 0 cs else c :: stripFrom 0 cs

/-- The text without its blanks and without the comments outside its strings. -/
def strip (cs : List Char) : List Char := stripFrom 0 cs

@[simp] lemma strip_nil : strip [] = [] := rfl

@[simp] lemma stripFrom_zero (cs : List Char) : stripFrom 0 cs = strip cs := rfl

lemma stripFrom_append (u cs : List Char) : stripFrom u.length (u ++ cs) = strip cs := by
  induction u with
  | nil => rfl
  | cons c u ih => rw [List.length_cons, List.cons_append, stripFrom, ih]

/-- A block comment ends with its end mark, whatever stands behind it. -/
lemma blockCommentTail_spec {cs v : List Char} (h : blockCommentTail cs = some v) :
    v ≠ [] ∧ v <+: cs ∧ ∀ more, blockCommentTail (v ++ more) = some v := by
  fun_induction blockCommentTail cs generalizing v with
  | case1 => cases h
  | case2 =>
    cases h
    exact ⟨by simp, by simp, fun more => rfl⟩
  | case3 d cs hne ih =>
    obtain ⟨x, hx, rfl⟩ := Option.map_eq_some_iff.mp h
    obtain ⟨hnil, ⟨ys, rfl⟩, htail⟩ := ih hx
    refine ⟨by simp, by simp, fun more => ?_⟩
    rw [List.cons_append, blockCommentTail, htail more]
    · rfl
    · rintro ds rfl hds
      obtain ⟨e, x, rfl⟩ := List.exists_cons_of_ne_nil hnil
      exact hne (x ++ ys) rfl (congrArg (· :: (x ++ ys)) (List.cons.inj hds).1)

lemma comment?_spec {cs v : List Char} (h : comment? cs = some v) : v ≠ [] ∧ v <+: cs := by
  unfold comment? at h
  split at h
  · cases h
    simpa using List.takeWhile_prefix _
  · obtain ⟨u, hu, rfl⟩ := Option.map_eq_some_iff.mp h
    simpa using (blockCommentTail_spec hu).2.1
  · cases h

variable {v rest : List Char}

lemma strip_comment (h : comment? (v ++ rest) = some v) : strip (v ++ rest) = strip rest := by
  obtain ⟨c, u, rfl⟩ := List.exists_cons_of_ne_nil (comment?_spec h).1
  rw [List.cons_append] at h ⊢
  rw [strip, stripFrom, h]
  simpa using stripFrom_append u rest

lemma strip_string (hc : comment? (v ++ rest) = none) (h : string? (v ++ rest) = some v) :
    strip (v ++ rest) = v ++ strip rest := by
  obtain ⟨c, u, rfl⟩ := List.exists_cons_of_ne_nil (string?_spells h).1.ne_nil
  rw [List.cons_append] at h hc ⊢
  rw [strip, stripFrom, hc, h]
  simpa using stripFrom_append u rest

/-- Blanks are dropped. -/
lemma strip_space (hv : ∀ c ∈ v, isSpace c = true) : strip (v ++ rest) = strip rest := by
  induction v with
  | nil => rfl
  | cons c v ih =>
    have hc := hv c (by simp)
    rw [List.cons_append, strip, stripFrom, comment?_of_isSpace hc, string?_of_isSpace hc]
    simpa [hc] using ih fun d hd => hv d (by simp [hd])

/-- A character that opens no comment with the next one has no comment at its place. -/
lemma comment?_run {c : Char} (hc : (c :: v ++ rest.take 1).IsChain OpensNothing) :
    comment? (c :: v ++ rest) = none := by
  refine comment?_eq_none fun d hd => ?_
  cases v with
  | nil =>
    obtain ⟨ds, rfl⟩ : ∃ ds, rest = d :: ds := by
      cases rest with
      | nil => cases hd
      | cons e ds =>
        cases hd
        exact ⟨ds, rfl⟩
    exact (List.isChain_cons_cons.mp hc).1
  | cons b v =>
    cases hd
    exact (List.isChain_cons_cons.mp hc).1

/-- A run of characters that are no blanks and no quotes, and of which none opens a comment, is copied. -/
lemma strip_run (hv : ∀ c ∈ v, isSpace c = false ∧ c ≠ '"' ∧ c ≠ '\x27')
    (hc : (v ++ rest.take 1).IsChain OpensNothing) : strip (v ++ rest) = v ++ strip rest := by
  induction v with
  | nil => rfl
  | cons c v ih =>
    obtain ⟨hs, hq, hq'⟩ := hv c (by simp)
    have hcom := comment?_run hc
    rw [List.cons_append] at hcom ⊢
    rw [strip, stripFrom, hcom, string?_eq_none hq hq']
    simpa [hs] using ih (fun d hd => hv d (by simp [hd])) hc.tail

/-- The text holds together in front of `rest`: it is the string that stands there, or a run of characters
that are no blanks and no quotes and of which none opens a comment. -/
inductive Solid (rest : List Char) : List Char → Prop
  | quoted {v : List Char} : string? (v ++ rest) = some v → Solid rest v
  | run {v : List Char} : v ≠ [] → (∀ c ∈ v, isSpace c = false ∧ c ≠ '"' ∧ c ≠ '\x27') →
      (v ++ rest.take 1).IsChain OpensNothing → Solid rest v

namespace Solid

lemma ne_nil (h : Solid rest v) : v ≠ [] := by
  cases h with
  | quoted hs => exact (string?_spells hs).1.ne_nil
  | run hne _ _ => exact hne

/-- No comment stands at the front. -/
lemma comment?_eq (h : Solid rest v) : comment? (v ++ rest) = none := by
  obtain ⟨c, v, rfl⟩ := List.exists_cons_of_ne_nil h.ne_nil
  cases h with
  | quoted hs =>
    refine comment?_eq_none fun _ _ he => ?_
    subst he
    simp [string?] at hs
  | run _ _ hc => exact comment?_run hc

/-- The scan copies the text. -/
lemma strip_eq (h : Solid rest v) : strip (v ++ rest) = v ++ strip rest := by
  cases h with
  | quoted hs => exact strip_string (quoted hs).comment?_eq hs
  | run _ hv hc => exact strip_run hv hc

/-- Characters of names and signs hold together. -/
lemma of_plain (hne : v ≠ [])
    (hv : ∀ c ∈ v, isWordChar c = true ∧ c ≠ '/' ∨ c ∈ [';', '\x7b', '\x7d']) : Solid rest v := by
  have hslash : ∀ c ∈ v, c ≠ '/' := by
    intro c hc
    rcases hv c hc with h | h
    · exact h.2
    · rintro rfl
      exact absurd h (by decide)
  refine run hne (fun c hc => ?_) ?_
  · rcases hv c hc with h | h
    · exact ⟨isSpace_of_isWordChar h.1, isWordChar_ne_quote h.1⟩
    · have hall : ([';', '\x7b', '\x7d'].all fun c => !isSpace c && c != '"' && c != '\x27') = true := by
        decide
      simpa [and_assoc] using List.all_eq_true.mp hall c h
  · refine List.isChain_append.mpr ⟨isChain_opensNothing hslash, ?_, ?_⟩
    · cases rest <;> simp
    · intro c hc d _ he
      exact absurd he (hslash c (List.mem_of_mem_getLast? hc))

lemma of_ident (h : Terminal.ident.Spells v) : Solid rest v := by
  cases h with
  | fixed h => cases h
  | @ident c cs hc hcs =>
    refine of_plain (List.cons_ne_nil c cs) fun d hd => Or.inl ?_
    rcases List.mem_cons.mp hd with rfl | hd
    · exact isWordChar_of_isIdentRest (isIdentRest_of_isIdentStart hc)
    · exact isWordChar_of_isIdentRest (hcs d hd)

lemma of_fixed {t : Terminal} (h : t.spelling? = some v) : Solid rest v := by
  have hall : ∀ t ∈ Terminal.fixed, ((t.spelling?.getD []).all fun c =>
      decide (isWordChar c = true ∧ c ≠ '/' ∨ c ∈ [';', '\x7b', '\x7d'])) = true := by decide +kernel
  have ht := hall t (Terminal.mem_fixed h)
  rw [h, Option.getD_some, List.all_eq_true] at ht
  exact of_plain (Terminal.Spells.fixed h).ne_nil fun c hc => of_decide_eq_true (ht c hc)

end Solid

/-- The word at the front of a text does not end with the first half of a comment mark. -/
lemma wordRun_chain {cs rest : List Char} (h : cs = wordRun cs ++ rest) :
    (wordRun cs ++ rest.take 1).IsChain OpensNothing := by
  induction cs with
  | nil =>
    cases rest <;> simp [wordRun] at h ⊢
  | cons c cs ih =>
    unfold wordRun at h ⊢
    split_ifs at h ⊢ with he
    · cases rest <;> simp
    · rw [Bool.not_eq_true, endsWord_eq_false] at he
      have hcs : cs = wordRun cs ++ rest := (List.cons.inj h).2
      rw [List.cons_append, List.isChain_cons]
      refine ⟨fun d hd => he.2 d ?_, ih hcs⟩
      have hhead : (wordRun cs ++ rest.take 1).head? = cs.head? := by
        conv_rhs => rw [hcs]
        simp [List.head?_append, List.head?_take]
      exact hhead ▸ hd

lemma Solid.of_word {cs : List Char} (h : word? cs = some v) (hcs : cs = v ++ rest) : Solid rest v := by
  obtain ⟨rfl, hne⟩ := nonempty?_eq_some.mp h
  refine .run hne (fun c hc => ?_) (wordRun_chain hcs)
  have hw := (wordRun_spec cs).1 c hc
  exact ⟨isSpace_of_isWordChar hw, isWordChar_ne_quote hw⟩

/-- What a lexeme in front of `rest` can be: blanks, the comment that stands there, or a lexeme of its
terminal which the scan copies. -/
inductive Lexeme.Fronts (rest : List Char) : Lexeme → Prop
  | space {v : List Char} : v ≠ [] → (∀ c ∈ v, isSpace c = true) → Fronts rest (.space v)
  | comment {v : List Char} : comment? (v ++ rest) = some v → Fronts rest (.comment v)
  | token {k : Terminal} {v : List Char} : k.Spells v → comment? (v ++ rest) = none →
      strip (v ++ rest) = v ++ strip rest → Fronts rest (.token k v)

lemma Lexeme.Fronts.ne_nil {l : Lexeme} (h : l.Fronts rest) : l.text ≠ [] := by
  cases h with
  | space hne _ => exact hne
  | comment hc => exact (comment?_spec hc).1
  | token hk _ _ => exact hk.ne_nil

lemma Offer.classify_spells {o : Offer} {t : Terminal} (h : t.Spells v) :
    (o.classify t v).Spells v := by
  unfold classify
  cases hf : Terminal.fixed.find? fun u => o u && u.spelling? == some v with
  | none => exact h
  | some u =>
    have hu := List.find?_some hf
    simp only [Bool.and_eq_true, beq_iff_eq] at hu
    exact .fixed hu.2

lemma Offer.lexed?_eq_some {o : Offer} {t : Terminal} {found : Option (List Char)} {l : Lexeme}
    (h : o.lexed? t found = some l) : ∃ v, found = some v ∧ l = .token (o.classify t v) v := by
  unfold lexed? at h
  split_ifs at h
  obtain ⟨v, hv, rfl⟩ := Option.map_eq_some_iff.mp h
  exact ⟨v, hv, rfl⟩

lemma Offer.fixed?_eq_some {o : Offer} {cs : List Char} {l : Lexeme} (h : o.fixed? cs = some l) :
    ∃ t v, o t = true ∧ t.spelling? = some v ∧ v <+: cs ∧ l = .token t v := by
  unfold fixed? at h
  obtain ⟨t, ht, hl⟩ := Option.bind_eq_some_iff.mp h
  obtain ⟨v, hv, rfl⟩ := Option.map_eq_some_iff.mp hl
  have hs := List.find?_some ht
  simp only [Bool.and_eq_true, Terminal.stands, hv, List.isPrefixOf_iff_prefix] at hs
  exact ⟨t, v, hs.1, hv, hs.2, rfl⟩

/-- Whatever the offer, the lexeme that is read is the comment at the front, the blanks there, or a token
that holds together. -/
theorem Offer.lexeme?_cases {o : Offer} {cs : List Char} {l : Lexeme} (h : o.lexeme? cs = some l) :
    (∃ v, comment? cs = some v ∧ l = .comment v) ∨ (∃ v, space? cs = some v ∧ l = .space v) ∨
      ∃ k v rest, l = .token k v ∧ cs = v ++ rest ∧ k.Spells v ∧ Solid rest v := by
  unfold lexeme? at h
  cases hcom : comment? cs with
  | some v =>
    rw [hcom] at h
    cases h
    exact Or.inl ⟨v, rfl, rfl⟩
  | none =>
    rw [hcom] at h
    simp only [Option.map_none, Option.orElse_eq_orElse, Option.orElse_eq_or,
      Option.none_or, Option.or_eq_some_iff] at h
    right
    rcases h with h | ⟨-, h | ⟨-, h | ⟨-, h | ⟨-, h⟩⟩⟩⟩
    · obtain ⟨v, hv, rfl⟩ := lexed?_eq_some h
      obtain ⟨hs, rest, rfl⟩ := string?_spells hv
      exact Or.inr ⟨_, v, rest, rfl, rfl, classify_spells hs, .quoted hv⟩
    · obtain ⟨v, hv, rfl⟩ := lexed?_eq_some h
      obtain ⟨hs, rest, rfl⟩ := word?_spells hv
      exact Or.inr ⟨_, v, rest, rfl, rfl, classify_spells hs, .of_word hv rfl⟩
    · obtain ⟨v, hv, rfl⟩ := lexed?_eq_some h
      obtain ⟨hs, rest, rfl⟩ := ident?_spells hv
      exact Or.inr ⟨_, v, rest, rfl, rfl, classify_spells hs, .of_ident hs⟩
    · obtain ⟨v, hv, rfl⟩ := Option.map_eq_some_iff.mp h
      exact Or.inl ⟨v, hv, rfl⟩
    · obtain ⟨t, v, -, hv, ⟨rest, rfl⟩, rfl⟩ := fixed?_eq_some h
      exact Or.inr ⟨t, v, rest, rfl, rfl, .fixed hv, .of_fixed hv⟩

/-- Whatever the offer, the lexeme that is read stands at the front of the text and is treated by the
scan as it is by the reader. -/
theorem Offer.lexeme?_fronts {o : Offer} {cs : List Char} {l : Lexeme} (h : o.lexeme? cs = some l) :
    ∃ rest, cs = l.text ++ rest ∧ l.Fronts rest := by
  rcases lexeme?_cases h with ⟨v, hv, rfl⟩ | ⟨v, hv, rfl⟩ | ⟨k, v, rest, rfl, rfl, hk, hs⟩
  · obtain ⟨rest, rfl⟩ := (comment?_spec hv).2
    exact ⟨rest, rfl, .comment hv⟩
  · obtain ⟨rfl, hne⟩ := nonempty?_eq_some.mp hv
    refine ⟨cs.dropWhile isSpace, List.takeWhile_append_dropWhile.symm, .space hne fun c hc => ?_⟩
    exact List.all_eq_true.mp List.all_takeWhile c hc
  · exact ⟨rest, rfl, .token hk hs.comment?_eq hs.strip_eq⟩

end Stubsmith.Proto
