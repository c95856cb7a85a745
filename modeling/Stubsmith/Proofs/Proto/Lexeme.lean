import Mathlib.Data.List.TakeWhile
import Stubsmith.Proofs.Proto.Spelling

/-!
# Lexemes under an offer

An offer is tidy if no terminal is offered beside words that a word would swallow. Under a tidy offer
every spelling of an offered terminal, followed by a blank or by nothing, is read whole; its kind may
change to that of an offered keyword of the same spelling. Whatever is read stands at the front of the
text and spells its kind.
-/
namespace Stubsmith.Proto

namespace Terminal

lemma mem_fixed {t : Terminal} {v : List Char} (h : t.spelling? = some v) : t ∈ fixed := by
  cases t with
  | keyword k => exact List.mem_append_left _ (List.mem_map_of_mem (Keyword.mem_all k))
  | ident => cases h
  | string => cases h
  | word => cases h
  | _ => decide

def all : List Terminal := fixed ++ [ident, string, word]

theorem mem_all (t : Terminal) : t ∈ all := by
  cases t with
  | keyword k => exact List.mem_append_left _ (mem_fixed (t := .keyword k) rfl)
  | _ => decide

lemma fixed_prefix_free : ∀ t ∈ fixed, ∀ u ∈ fixed,
    (t.spelling?.getD []).isPrefixOf (u.spelling?.getD []) = true → t = u := by
  decide +kernel

/-- No spelling begins another. -/
lemma eq_of_prefix {t u : Terminal} {v w : List Char} (ht : t.spelling? = some v)
    (hu : u.spelling? = some w) (h : v <+: w) : t = u := by
  apply fixed_prefix_free t (mem_fixed ht) u (mem_fixed hu)
  simpa [ht, hu] using h

lemma eq_of_spelling {t u : Terminal} {v : List Char} (ht : t.spelling? = some v)
    (hu : u.spelling? = some v) : t = u := eq_of_prefix ht hu (List.prefix_refl v)

/-- The keywords are names. -/
lemma keyword_spells_ident (k : Keyword) : Terminal.ident.Spells k.spelling.toList := by
  have h : ∀ k ∈ Keyword.all, k.spelling.toList.head?.all isIdentStart = true ∧
      k.spelling.toList ≠ [] ∧ k.spelling.toList.tail.all isIdentRest = true := by decide +kernel
  obtain ⟨hc, hne, hcs⟩ := h k (Keyword.mem_all k)
  obtain ⟨c, cs, he⟩ := List.exists_cons_of_ne_nil hne
  rw [he] at hc hcs ⊢
  exact .ident (by simpa using hc) (by simpa using hcs)

lemma Spells.word_of_ident {v : List Char} (h : Terminal.ident.Spells v) : Terminal.word.Spells v := by
  cases h with
  | fixed h => cases h
  | @ident c cs hc hcs =>
    have hall : ∀ d ∈ c :: cs, isIdentRest d = true := by
      intro d hd
      rcases List.mem_cons.mp hd with rfl | hd
      · exact isIdentRest_of_isIdentStart hc
      · exact hcs d hd
    exact .word (List.cons_ne_nil c cs) (fun d hd => (isWordChar_of_isIdentRest (hall d hd)).1)
      (isChain_opensNothing fun d hd => (isWordChar_of_isIdentRest (hall d hd)).2)

end Terminal

lemma comment?_eq_none {c : Char} {cs : List Char} (h : ∀ d ∈ cs.head?, OpensNothing c d) :
    comment? (c :: cs) = none := by
  unfold comment?
  split
  · next heq =>
    cases heq
    exact absurd rfl (h '/' rfl rfl).1
  · next heq =>
    cases heq
    exact absurd rfl (h '*' rfl rfl).2
  · rfl

lemma string?_eq_none {c : Char} {cs : List Char} (h : c ≠ '"') (h' : c ≠ '\x27') :
    string? (c :: cs) = none := by simp [string?, h, h']

lemma comment?_of_isSpace {c : Char} {cs : List Char} (h : isSpace c = true) : comment? (c :: cs) = none := by
  refine comment?_eq_none fun _ _ he => ?_
  subst he
  exact absurd h (by decide)

lemma string?_of_isSpace {c : Char} {cs : List Char} (h : isSpace c = true) : string? (c :: cs) = none := by
  apply string?_eq_none
  · rintro rfl
    exact absurd h (by decide)
  · rintro rfl
    exact absurd h (by decide)

lemma space?_eq_none {c : Char} {cs : List Char} (h : isSpace c = false) : space? (c :: cs) = none := by
  simp [space?, nonempty?, h]

lemma isWordChar_ne_quote {c : Char} (h : isWordChar c = true) : c ≠ '"' ∧ c ≠ '\x27' := by
  constructor
  · rintro rfl
    exact absurd h (by decide)
  · rintro rfl
    exact absurd h (by decide)

/-- At the front of a word stand neither a comment, nor a string, nor a blank. -/
lemma word_front {v rest : List Char} (h : Terminal.word.Spells v) (hr : Parted rest) :
    comment? (v ++ rest) = none ∧ string? (v ++ rest) = none ∧ space? (v ++ rest) = none := by
  have hw := word?_append h hr
  obtain ⟨c, cs, rfl⟩ := List.exists_cons_of_ne_nil h.ne_nil
  have he : endsWord c (cs ++ rest) = false := by
    by_contra he
    rw [Bool.not_eq_false] at he
    simp [word?, wordRun, he, nonempty?] at hw
  rw [endsWord_eq_false] at he
  have hq := isWordChar_ne_quote he.1
  exact ⟨comment?_eq_none he.2, string?_eq_none hq.1 hq.2,
    space?_eq_none (isSpace_of_isWordChar he.1)⟩

/-- At the front of a name stand neither a comment nor a string. -/
lemma ident_front {v rest : List Char} (h : Terminal.ident.Spells v) :
    comment? (v ++ rest) = none ∧ string? (v ++ rest) = none := by
  cases h with
  | fixed h => cases h
  | @ident c cs hc _ =>
    have hw := isWordChar_of_isIdentRest (isIdentRest_of_isIdentStart hc)
    have hq := isWordChar_ne_quote hw.1
    exact ⟨comment?_eq_none fun _ _ he => absurd he hw.2, string?_eq_none hq.1 hq.2⟩

/-- The text behind a lexeme of the terminal does not go on with it: words and keywords need a blank there, names
a character that belongs to no name, strings and signs nothing. -/
def Terminal.Detached (rest : List Char) : Terminal → Prop
  | .keyword _ | .word => Parted rest
  | .ident => ∀ c ∈ rest.head?, isIdentRest c = false
  | _ => True

lemma Parted.detached {rest : List Char} (h : Parted rest) (t : Terminal) : t.Detached rest := by
  cases t with
  | keyword k => exact h
  | word => exact h
  | ident => exact h.head_isIdentRest
  | _ => trivial

/-- A character that is no blank, no quote and no slash. -/
def isPlain (c : Char) : Bool := !(isSpace c || c == '/' || c == '"' || c == '\x27')

lemma isPlain_of_isIdentRest {c : Char} (h : isIdentRest c = true) : isPlain c = true := by
  obtain ⟨hw, hslash⟩ := isWordChar_of_isIdentRest h
  simp [isPlain, isSpace_of_isWordChar hw, isWordChar_ne_quote hw, hslash]

lemma ident?_takeWhile (cs : List Char) : ident? (cs.takeWhile isPlain) = ident? cs := by
  cases cs with
  | nil => rfl
  | cons c cs =>
    by_cases hc : isIdentStart c = true
    · have hrun : (cs.takeWhile isPlain).takeWhile isIdentRest = cs.takeWhile isIdentRest := by
        rw [List.takeWhile_takeWhile]
        congr 1
        funext d
        simpa using isPlain_of_isIdentRest
      have hplain := isPlain_of_isIdentRest (isIdentRest_of_isIdentStart hc)
      simp [ident?, hc, hplain, hrun]
    · by_cases hplain : isPlain c = true
      · simp [ident?, hc, hplain]
      · simp [ident?, hc, hplain]

/-- Keywords and signs consist of plain characters. -/
lemma Terminal.isPlain_of_spelling {t : Terminal} {v : List Char} (h : t.spelling? = some v) :
    ∀ c ∈ v, isPlain c = true := by
  have hall : ∀ t ∈ Terminal.fixed, (t.spelling?.getD []).all isPlain = true := by decide +kernel
  have hplain := hall t (mem_fixed h)
  rwa [h, Option.getD_some, List.all_eq_true] at hplain

lemma Terminal.stands_takeWhile (t : Terminal) (cs : List Char) :
    t.stands (cs.takeWhile isPlain) = t.stands cs := by
  unfold stands
  split
  · next s hs =>
    rw [Bool.eq_iff_iff, List.isPrefixOf_iff_prefix, List.isPrefixOf_iff_prefix]
    constructor
    · intro h
      exact h.trans (List.takeWhile_prefix _)
    · rintro ⟨rest, rfl⟩
      rw [List.takeWhile_append_of_pos (isPlain_of_spelling hs)]
      exact List.prefix_append _ _
  · rfl

namespace Offer

/-- Beside words, no terminal is offered whose spelling a word could hold, keywords apart. -/
def Tidy (o : Offer) : Prop :=
  o .word = true → ∀ t ∈ [Terminal.ident, .equals, .openParen, .closeParen, .dot], o t = false

instance (o : Offer) : Decidable o.Tidy :=
  inferInstanceAs (Decidable (o .word = true →
    ∀ t ∈ [Terminal.ident, .equals, .openParen, .closeParen, .dot], o t = false))

variable {o : Offer} {t : Terminal} {v : List Char}

lemma classify_fixed (ho : o t = true) (hv : t.spelling? = some v) (kind : Terminal) :
    o.classify kind v = t := by
  unfold classify
  cases hf : Terminal.fixed.find? fun u => o u && u.spelling? == some v with
  | none =>
    have h := List.find?_eq_none.mp hf t (Terminal.mem_fixed hv)
    simp [ho, hv] at h
  | some u =>
    have h := List.find?_some hf
    simp only [Bool.and_eq_true, beq_iff_eq] at h
    exact Terminal.eq_of_spelling h.2 hv

lemma classify_free (h : ∀ u, o u = true → u.spelling? ≠ some v) : o.classify t v = t := by
  unfold classify
  rw [List.find?_eq_none.mpr]
  · rfl
  · intro u _ hu
    simp only [Bool.and_eq_true, beq_iff_eq] at hu
    exact h u hu.1 hu.2

/-- No keyword or sign begins with a quote. -/
lemma classify_string {q : Char} {cs : List Char} (hq : q = '"' ∨ q = '\x27') (t : Terminal) :
    o.classify t (q :: cs) = t := by
  have hall : ∀ u ∈ Terminal.fixed, (u.spelling?.getD []).head? ≠ some '"' ∧
      (u.spelling?.getD []).head? ≠ some '\x27' := by decide +kernel
  refine classify_free fun u _ hs => ?_
  have hc := hall u (Terminal.mem_fixed hs)
  rw [hs] at hc
  rcases hq with rfl | rfl
  · exact hc.1 rfl
  · exact hc.2 rfl

lemma fixed?_append (ho : o t = true) (hv : t.spelling? = some v) (rest : List Char) :
    o.fixed? (v ++ rest) = some (.token t v) := by
  have hstands : ∀ u, u.stands (v ++ rest) = true → u = t := by
    intro u hu
    unfold Terminal.stands at hu
    split at hu
    · next w hw =>
      rcases List.prefix_or_prefix_of_prefix (List.isPrefixOf_iff_prefix.mp hu)
        (List.prefix_append v rest) with h | h
      · exact Terminal.eq_of_prefix hw hv h
      · exact (Terminal.eq_of_prefix hv hw h).symm
    · cases hu
  unfold fixed?
  cases hf : Terminal.fixed.find? fun u => o u && u.stands (v ++ rest) with
  | none =>
    have h := List.find?_eq_none.mp hf t (Terminal.mem_fixed hv)
    simp [ho, hv, Terminal.stands, List.prefix_append] at h
  | some u =>
    have h := List.find?_some hf
    simp only [Bool.and_eq_true] at h
    obtain rfl := hstands u h.2
    simp [hv]

@[simp] lemma lexed?_none (kind : Terminal) : o.lexed? kind none = none := by
  simp [lexed?]

lemma lexed?_some (ho : o t = true) : o.lexed? t (some v) = some (.token (o.classify t v) v) := by
  simp [lexed?, ho]

lemma lexed?_unoffered (ho : o t = false) (found : Option (List Char)) : o.lexed? t found = none := by
  simp [lexed?, ho]

lemma word_unoffered (htidy : o.Tidy) (ho : o t = true)
    (ht : t ∈ [Terminal.ident, .equals, .openParen, .closeParen, .dot]) : o .word = false := by
  by_contra hw
  rw [Bool.not_eq_false] at hw
  have hf := htidy hw t ht
  rw [ho] at hf
  cases hf

/-- A sign is read as itself unless a word would swallow it. -/
lemma lexeme?_sign {c : Char} {rest : List Char} (ho : o t = true) (hv : t.spelling? = some [c])
    (hc : endsWord c rest = true ∨ o .word = false) (hslash : c ≠ '/') (hq : c ≠ '"')
    (hq' : c ≠ '\x27') (hs : isSpace c = false) (hi : isIdentStart c = false) :
    o.lexeme? (c :: rest) = some (.token t [c]) := by
  have hw : o.lexed? .word (word? (c :: rest)) = none := by
    rcases hc with hc | hc
    · simp [word?, wordRun, hc, nonempty?]
    · exact lexed?_unoffered hc _
  unfold lexeme?
  rw [comment?_eq_none fun _ _ h => absurd h hslash, string?_eq_none hq hq', hw,
    space?_eq_none hs]
  simpa [ident?, hi] using fixed?_append ho hv rest

lemma lexeme?_keyword {k : Keyword} {rest : List Char} (ho : o (.keyword k) = true)
    (hr : Parted rest) :
    o.lexeme? (k.spelling.toList ++ rest) = some (.token (.keyword k) k.spelling.toList) := by
  have hi := Terminal.keyword_spells_ident k
  have hw := hi.word_of_ident
  obtain ⟨hcom, hstr, hspc⟩ := word_front hw hr
  have hclass := fun kind => classify_fixed ho (v := k.spelling.toList) rfl kind
  unfold lexeme?
  rw [hcom, hstr, hspc, word?_append hw hr, ident?_append hi hr.head_isIdentRest]
  cases how : o .word with
  | true => simp [lexed?_some how, hclass]
  | false =>
    cases hoi : o .ident with
    | true => simp [lexed?_unoffered how, lexed?_some hoi, hclass]
    | false =>
      simpa [lexed?_unoffered how, lexed?_unoffered hoi] using fixed?_append ho (v := k.spelling.toList) rfl rest

/-- The recognisers decide which lexeme is read; names, keywords and signs are runs of plain characters. -/
lemma lexeme?_congr {cs cs' : List Char} (hcom : comment? cs' = comment? cs) (hstr : string? cs' = string? cs)
    (hword : wordRun cs' = wordRun cs) (hspace : space? cs' = space? cs)
    (hplain : cs'.takeWhile isPlain = cs.takeWhile isPlain) : o.lexeme? cs' = o.lexeme? cs := by
  have hident : ident? cs' = ident? cs := by rw [← ident?_takeWhile, hplain, ident?_takeWhile]
  have hfixed : ∀ t : Terminal, t.stands cs' = t.stands cs := by
    intro t
    rw [← t.stands_takeWhile, hplain, t.stands_takeWhile]
  simp only [lexeme?, fixed?, word?, hcom, hstr, hword, hident, hspace, hfixed]

/-- Under a tidy offer a lexeme of an offered terminal is read whole. -/
theorem lexeme?_append {rest : List Char} (htidy : o.Tidy) (ho : o t = true) (hv : t.Spells v)
    (hr : t.Detached rest) : o.lexeme? (v ++ rest) = some (.token (o.classify t v) v) := by
  cases hv with
  | fixed hv =>
    rw [classify_fixed ho hv]
    cases t with
    | keyword k =>
      cases hv
      exact lexeme?_keyword ho hr
    | ident => cases hv
    | string => cases hv
    | word => cases hv
    | semicolon =>
      cases hv
      exact lexeme?_sign ho rfl (Or.inl rfl) (by decide) (by decide) (by decide) rfl rfl
    | openBrace =>
      cases hv
      exact lexeme?_sign ho rfl (Or.inl rfl) (by decide) (by decide) (by decide) rfl rfl
    | closeBrace =>
      cases hv
      exact lexeme?_sign ho rfl (Or.inl rfl) (by decide) (by decide) (by decide) rfl rfl
    | _ =>
      cases hv
      have hw := word_unoffered htidy ho (by decide)
      exact lexeme?_sign ho rfl (Or.inr hw) (by decide) (by decide) (by decide) rfl rfl
  | ident hc hcs =>
    have hi : Terminal.ident.Spells _ := .ident hc hcs
    obtain ⟨hcom, hstr⟩ := @ident_front _ rest hi
    have hw := word_unoffered htidy ho (by decide)
    unfold lexeme?
    rw [hcom, hstr, lexed?_none, lexed?_unoffered hw, ident?_append hi hr, lexed?_some ho]
    rfl
  | @string q cs hq hcs =>
    have hs : Terminal.string.Spells _ := .string hq hcs
    have hcom : comment? (q :: cs ++ rest) = none := by
      refine comment?_eq_none fun d _ h => ?_
      subst h
      simp at hq
    unfold lexeme?
    rw [hcom, string?_append hs, lexed?_some ho]
    rfl
  | word hne hall hchain =>
    have hw : Terminal.word.Spells v := .word hne hall hchain
    obtain ⟨hcom, hstr, -⟩ := word_front hw hr
    unfold lexeme?
    rw [hcom, hstr, lexed?_none, word?_append hw hr, lexed?_some ho]
    rfl

end Offer

end Stubsmith.Proto
