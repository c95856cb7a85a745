import Mathlib.Data.List.Chain
import Mathlib.Tactic.Common
import Stubsmith.Proto.Lexeme

/-!
# How terminals are spelled

`Terminal.Spells` says which texts are lexemes of a terminal, without regard to where they stand. The
recognisers agree with it: each takes a lexeme from the front of a text, and a lexeme that a blank
follows, or nothing at all, is taken whole.
-/
namespace Stubsmith.Proto

/-- What may follow the opening quote `q`: characters other than the quote, backslashes that take the
next character along, and the closing quote. -/
inductive QuoteTail (q : Char) : List Char → Prop
  | close : QuoteTail q [q]
  | plain {c : Char} {cs : List Char} :
      c ≠ q → c ≠ '\\' → c ≠ '\n' → QuoteTail q cs → QuoteTail q (c :: cs)
  | escaped {c : Char} {cs : List Char} : c ≠ '\n' → QuoteTail q cs → QuoteTail q ('\\' :: c :: cs)

/-- A character that a word may hold. -/
def isWordChar (c : Char) : Bool :=
  !(Text.isBlank c || c == ';' || c == '\x7b' || c == '\x7d' || c == '"' || c == '\x27')

/-- The two characters open no comment. -/
def OpensNothing (a b : Char) : Prop := a = '/' → b ≠ '/' ∧ b ≠ '*'

instance : DecidableRel OpensNothing := fun a b =>
  inferInstanceAs (Decidable (a = '/' → b ≠ '/' ∧ b ≠ '*'))

lemma isChain_opensNothing {v : List Char} (h : ∀ c ∈ v, c ≠ '/') : v.IsChain OpensNothing :=
  List.Pairwise.isChain (List.pairwise_of_forall_mem_list fun c hc _ _ he => absurd he (h c hc))

/-- The text is a lexeme of the terminal. -/
inductive Terminal.Spells : Terminal → List Char → Prop
  | fixed {t : Terminal} {v : List Char} : t.spelling? = some v → Spells t v
  | ident {c : Char} {cs : List Char} :
      isIdentStart c = true → (∀ d ∈ cs, isIdentRest d = true) → Spells .ident (c :: cs)
  | string {q : Char} {cs : List Char} :
      q = '"' ∨ q = '\x27' → QuoteTail q cs → Spells .string (q :: cs)
  | word {v : List Char} :
      v ≠ [] → (∀ c ∈ v, isWordChar c = true) → v.IsChain OpensNothing → Spells .word v

/-- Every lexeme has a first character. -/
lemma Terminal.Spells.ne_nil {t : Terminal} {v : List Char} (h : t.Spells v) : v ≠ [] := by
  cases h with
  | fixed h =>
    rintro rfl
    cases t with
    | keyword k => cases k <;> simp [spelling?, Keyword.spelling] at h
    | _ => cases h
  | ident => simp
  | string => simp
  | word h => exact h

/-- The text is empty or begins with a blank. -/
def Parted (rest : List Char) : Prop := ∀ c ∈ rest.head?, isSpace c = true

@[simp] lemma parted_nil : Parted [] := by simp [Parted]

@[simp] lemma parted_cons {c : Char} {cs : List Char} : Parted (c :: cs) ↔ isSpace c = true := by
  simp [Parted]

lemma isBlank_of_isSpace {c : Char} (h : isSpace c = true) : Text.isBlank c = true := by
  simp only [isSpace, Bool.or_eq_true, beq_iff_eq] at h
  rcases h with (((h | h) | h) | h) | h <;> subst h <;> rfl

lemma isBlank_of_isWordChar {c : Char} (h : isWordChar c = true) : Text.isBlank c = false := by
  by_contra hb
  rw [Bool.not_eq_false] at hb
  simp [isWordChar, hb] at h

lemma isSpace_of_isWordChar {c : Char} (h : isWordChar c = true) : isSpace c = false := by
  by_contra hs
  rw [Bool.not_eq_false] at hs
  have hb := isBlank_of_isSpace hs
  rw [isBlank_of_isWordChar h] at hb
  cases hb

lemma isIdentRest_of_isIdentStart {c : Char} (h : isIdentStart c = true) : isIdentRest c = true := by
  simp only [isIdentStart, isIdentRest, Char.isAlphanum, Bool.or_eq_true] at *
  tauto

/-- Letters, digits and the underscore are word characters. -/
lemma isWordChar_of_isIdentRest {c : Char} (h : isIdentRest c = true) :
    isWordChar c = true ∧ c ≠ '/' := by
  have hn : (48 ≤ c.toNat ∧ c.toNat ≤ 57) ∨ (65 ≤ c.toNat ∧ c.toNat ≤ 90) ∨ c.toNat = 95 ∨
      (97 ≤ c.toNat ∧ c.toNat ≤ 122) := by
    unfold isIdentRest Char.isAlphanum Char.isAlpha Char.isUpper Char.isLower Char.isDigit at h
    simp only [Bool.or_eq_true, Bool.and_eq_true, decide_eq_true_eq, beq_iff_eq, ge_iff_le, UInt32.le_iff_toNat_le] at h
    rcases h with ((⟨h1, h2⟩ | ⟨h1, h2⟩) | ⟨h1, h2⟩) | h
    · exact Or.inr (Or.inl ⟨h1, h2⟩)
    · exact Or.inr (Or.inr (Or.inr ⟨h1, h2⟩))
    · exact Or.inl ⟨h1, h2⟩
    · subst h
      exact Or.inr (Or.inr (Or.inl rfl))
  have hne : ∀ d : Char, d.toNat < 48 ∨ d.toNat = 59 ∨ 123 ≤ d.toNat → c ≠ d := by
    rintro d hd rfl
    omega
  refine ⟨?_, hne _ (by decide)⟩
  have hb : Text.isBlank c = false := by
    simp only [Text.isBlank, Bool.or_eq_false_iff, Bool.and_eq_false_iff, decide_eq_false_iff_not,
      beq_eq_false_iff_ne]
    omega
  simp [isWordChar, hb, hne ';' (by decide), hne '\x7b' (by decide), hne '\x7d' (by decide),
    hne '"' (by decide), hne '\x27' (by decide)]

lemma endsWord_eq_false {c : Char} {cs : List Char} :
    endsWord c cs = false ↔ isWordChar c = true ∧ ∀ d ∈ cs.head?, OpensNothing c d := by
  unfold endsWord isWordChar OpensNothing
  rw [Bool.or_eq_false_iff, Bool.not_eq_true']
  refine and_congr_right fun _ => ?_
  cases cs with
  | nil => simp
  | cons d ds => simp

lemma wordRun_append {v rest : List Char} (hv : ∀ c ∈ v, isWordChar c = true)
    (hc : v.IsChain OpensNothing) (hr : Parted rest) : wordRun (v ++ rest) = v := by
  induction v with
  | nil =>
    cases rest with
    | nil => rfl
    | cons c cs =>
      have hb := isBlank_of_isSpace (parted_cons.mp hr)
      simp [wordRun, endsWord, hb]
  | cons a v ih =>
    have ha : endsWord a (v ++ rest) = false := by
      refine endsWord_eq_false.mpr ⟨hv a (by simp), ?_⟩
      cases v with
      | nil =>
        intro d hd _
        have hs := hr d hd
        constructor
        · rintro rfl
          exact absurd hs (by decide)
        · rintro rfl
          exact absurd hs (by decide)
      | cons b v =>
        intro d hd
        cases hd
        exact (List.isChain_cons_cons.mp hc).1
    rw [List.cons_append, wordRun, ha]
    simp only [Bool.false_eq_true, ↓reduceIte, List.cons.injEq, true_and]
    exact ih (fun c h => hv c (by simp [h])) hc.tail

lemma wordRun_spec (cs : List Char) :
    (∀ c ∈ wordRun cs, isWordChar c = true) ∧ (wordRun cs).IsChain OpensNothing ∧
      wordRun cs <+: cs := by
  induction cs with
  | nil => simp [wordRun]
  | cons a cs ih =>
    obtain ⟨hall, hchain, hpre⟩ := ih
    unfold wordRun
    split_ifs with h
    · simp
    · rw [Bool.not_eq_true, endsWord_eq_false] at h
      refine ⟨?_, ?_, (List.prefix_cons_inj a).mpr hpre⟩
      · intro c hc
        rcases List.mem_cons.mp hc with rfl | hc
        · exact h.1
        · exact hall c hc
      · cases hw : wordRun cs with
        | nil => simp
        | cons b w =>
          rw [hw] at hchain hpre
          obtain ⟨rest, rfl⟩ := hpre
          exact List.isChain_cons_cons.mpr ⟨h.2 b (by simp), hchain⟩

lemma nonempty?_eq_some {cs v : List Char} : nonempty? cs = some v ↔ cs = v ∧ v ≠ [] := by
  unfold nonempty?
  cases cs with
  | nil =>
    simp only [List.isEmpty_nil, if_true, reduceCtorEq, false_iff, not_and, not_not]
    exact Eq.symm
  | cons c cs =>
    simp only [List.isEmpty_cons, Bool.false_eq_true, if_false, Option.some.injEq]
    refine ⟨fun h => ⟨h, h ▸ List.cons_ne_nil c cs⟩, And.left⟩

lemma word?_append {v rest : List Char} (h : Terminal.word.Spells v) (hr : Parted rest) :
    word? (v ++ rest) = some v := by
  cases h with
  | fixed h => cases h
  | word hne hv hc => exact nonempty?_eq_some.mpr ⟨wordRun_append hv hc hr, hne⟩

lemma word?_spells {cs v : List Char} (h : word? cs = some v) :
    Terminal.word.Spells v ∧ v <+: cs := by
  obtain ⟨rfl, hne⟩ := nonempty?_eq_some.mp h
  obtain ⟨hall, hchain, hpre⟩ := wordRun_spec cs
  exact ⟨.word hne hall hchain, hpre⟩

lemma isIdentRest_of_isSpace {c : Char} (h : isSpace c = true) : isIdentRest c = false := by
  by_contra hi
  rw [Bool.not_eq_false] at hi
  have hs := isSpace_of_isWordChar (isWordChar_of_isIdentRest hi).1
  rw [h] at hs
  cases hs

lemma Parted.head_isIdentRest {rest : List Char} (h : Parted rest) : ∀ c ∈ rest.head?, isIdentRest c = false :=
  fun c hc => isIdentRest_of_isSpace (h c hc)

lemma ident?_append {v rest : List Char} (h : Terminal.ident.Spells v)
    (hr : ∀ c ∈ rest.head?, isIdentRest c = false) : ident? (v ++ rest) = some v := by
  cases h with
  | fixed h => cases h
  | @ident c cs hc hcs =>
    have ht : (cs ++ rest).takeWhile isIdentRest = cs := by
      rw [List.takeWhile_append_of_pos hcs]
      cases rest with
      | nil => simp
      | cons d ds => simp [hr d rfl]
    simp [ident?, hc, ht]

lemma ident?_spells {cs v : List Char} (h : ident? cs = some v) :
    Terminal.ident.Spells v ∧ v <+: cs := by
  cases cs with
  | nil => cases h
  | cons c cs =>
    simp only [ident?] at h
    split_ifs at h with hc
    cases h
    refine ⟨.ident hc fun d hd => List.all_eq_true.mp List.all_takeWhile d hd, ?_⟩
    exact (List.prefix_cons_inj c).mpr (List.takeWhile_prefix _)

lemma stringTail_append {q : Char} {cs : List Char} (h : QuoteTail q cs) (hq : q ≠ '\\')
    (rest : List Char) : stringTail q (cs ++ rest) = some cs := by
  induction h with
  | close =>
    rw [List.singleton_append, stringTail]
    · simp
    · intro _ _ h _
      exact hq h
  | @plain c cs hcq hcb hcn _ ih =>
    rw [List.cons_append, stringTail]
    · simp [hcq, hcb, hcn, ih]
    · intro _ _ h _
      exact hcb h
  | @escaped c cs hcn _ ih => simp [stringTail, hcn, ih]

lemma stringTail_spec {q : Char} {cs v : List Char} (h : stringTail q cs = some v) :
    QuoteTail q v ∧ v <+: cs := by
  fun_induction stringTail q cs generalizing v with
  | case1 => cases h
  | case2 cs => cases h
  | case3 c cs hc ih =>
    obtain ⟨u, hu, rfl⟩ := Option.map_eq_some_iff.mp h
    obtain ⟨hq, hp⟩ := ih hu
    exact ⟨.escaped hc hq, by simpa using hp⟩
  | case4 cs _ =>
    cases h
    exact ⟨.close, by simp⟩
  | case5 => cases h
  | case6 c cs _ hcq hc ih =>
    obtain ⟨u, hu, rfl⟩ := Option.map_eq_some_iff.mp h
    obtain ⟨hq, hp⟩ := ih hu
    simp only [Bool.or_eq_true, decide_eq_true_eq, not_or] at hc
    exact ⟨.plain hcq hc.2 hc.1 hq, by simpa using hp⟩

lemma string?_append {v : List Char} (h : Terminal.string.Spells v) (rest : List Char) :
    string? (v ++ rest) = some v := by
  cases h with
  | fixed h => cases h
  | @string q cs hq hcs =>
    have hb : q ≠ '\\' := by
      rcases hq with rfl | rfl <;> decide
    simp [string?, hq, stringTail_append hcs hb]

lemma string?_spells {cs v : List Char} (h : string? cs = some v) :
    Terminal.string.Spells v ∧ v <+: cs := by
  cases cs with
  | nil => cases h
  | cons c cs =>
    simp only [string?] at h
    split_ifs at h with hc
    obtain ⟨u, hu, rfl⟩ := Option.map_eq_some_iff.mp h
    obtain ⟨hq, hp⟩ := stringTail_spec hu
    simp only [Bool.or_eq_true, decide_eq_true_eq] at hc
    exact ⟨.string hc hq, by simpa using hp⟩

/-- What the recogniser of a terminal takes from the front of a text. -/
def Terminal.recognised? : Terminal → List Char → Option (List Char)
  | ident, v => ident? v
  | string, v => string? v
  | word, v => word? v
  | t, _ => t.spelling?

theorem Terminal.spells_iff {t : Terminal} {v : List Char} : t.Spells v ↔ t.recognised? v = some v := by
  constructor
  · intro h
    cases t with
    | ident => simpa [recognised?] using ident?_append h parted_nil.head_isIdentRest
    | string => simpa [recognised?] using string?_append h []
    | word => simpa [recognised?] using word?_append h parted_nil
    | _ =>
      cases h with
      | fixed h => exact h
  · intro h
    cases t with
    | ident => exact (ident?_spells h).1
    | string => exact (string?_spells h).1
    | word => exact (word?_spells h).1
    | _ => exact .fixed h

instance (t : Terminal) (v : List Char) : Decidable (t.Spells v) :=
  decidable_of_iff _ Terminal.spells_iff.symm

end Stubsmith.Proto
