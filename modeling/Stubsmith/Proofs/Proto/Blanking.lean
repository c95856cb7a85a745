import Stubsmith.Proofs.Proto.Completeness
import Stubsmith.Proofs.Proto.Soundness

/-!
# Texts with blanks in the place of comments

`blank` writes a blank over every character of a comment and keeps the line ends, so everything else stays
where it is. The reader takes the blanked text as it takes the text: it passes over blanks where it kept a
comment, finds the same tokens at the same places, and gives up at the same place for the same reason. So
the tree of the blanked text is the tree of the text without its comments.
-/
namespace Stubsmith.Proto

/-- Blanks in the place of a text. Its line ends stay. -/
def spaced (v : List Char) : List Char := v.map fun c => if c = '\n' then c else ' '

/-- The text with its comments blanked, the first `skip` characters left out. Strings are copied whole, so
nothing inside them is a comment. -/
def blankFrom : Nat → List Char → List Char
  | _, [] => []
  | skip + 1, _ :: cs => blankFrom skip cs
  | 0, c :: cs =>
    match comment? (c :: cs), string? (c :: cs) with
    | some t, _ => spaced t ++ blankFrom (t.length - 1) cs
    | none, some t => t ++ blankFrom (t.length - 1) cs
    | none, none => c :: blankFrom 0 cs

/-- The characters of a text with blanks in the place of the comments outside its strings. -/
def blanked (cs : List Char) : List Char := blankFrom 0 cs

/-- The text with blanks in the place of the comments outside its strings. -/
def blank (text : String) : String := String.ofList (blanked text.toList)

variable {c : Char} {v rest cs : List Char}

lemma blankFrom_append (u cs : List Char) : blankFrom u.length (u ++ cs) = blanked cs := by
  induction u with
  | nil => rfl
  | cons c u ih => rw [List.length_cons, List.cons_append, blankFrom, ih]

lemma blanked_comment (h : comment? (v ++ rest) = some v) :
    blanked (v ++ rest) = spaced v ++ blanked rest := by
  obtain ⟨c, u, rfl⟩ := List.exists_cons_of_ne_nil (comment?_spec h).1
  rw [List.cons_append] at h ⊢
  rw [blanked, blankFrom, h]
  simpa using blankFrom_append u rest

lemma blanked_string (h : string? (v ++ rest) = some v) : blanked (v ++ rest) = v ++ blanked rest := by
  have hcom := (Solid.quoted h).comment?_eq
  obtain ⟨c, u, rfl⟩ := List.exists_cons_of_ne_nil (string?_spells h).1.ne_nil
  rw [List.cons_append] at h hcom ⊢
  rw [blanked, blankFrom, hcom, h]
  simpa using blankFrom_append u rest

lemma blanked_cons (hcom : comment? (c :: cs) = none) (hstr : string? (c :: cs) = none) :
    blanked (c :: cs) = c :: blanked cs := by
  rw [blanked, blankFrom, hcom, hstr]
  rfl

/-- A text is empty, or begins with a comment, with a string, or with a character that opens neither. -/
theorem blanked_induction {P : List Char → Prop} (nil : P [])
    (comment : ∀ v rest, comment? (v ++ rest) = some v → P rest → P (v ++ rest))
    (string : ∀ v rest, string? (v ++ rest) = some v → P rest → P (v ++ rest))
    (plain : ∀ c cs, comment? (c :: cs) = none → string? (c :: cs) = none → P cs → P (c :: cs))
    (cs : List Char) : P cs := by
  induction hn : cs.length using Nat.strong_induction_on generalizing cs with
  | _ n ih =>
    subst hn
    cases cs with
    | nil => exact nil
    | cons c cs =>
      cases hcom : comment? (c :: cs) with
      | some v =>
        obtain ⟨hne, rest, hrest⟩ := comment?_spec hcom
        have hpos := List.length_pos_iff.mpr hne
        rw [← hrest] at hcom ih ⊢
        exact comment v rest hcom (ih rest.length (by rw [List.length_append]; omega) rest rfl)
      | none =>
        cases hstr : string? (c :: cs) with
        | some v =>
          obtain ⟨hs, rest, hrest⟩ := string?_spells hstr
          have hpos := List.length_pos_iff.mpr hs.ne_nil
          rw [← hrest] at hstr ih ⊢
          exact string v rest hstr (ih rest.length (by rw [List.length_append]; omega) rest rfl)
        | none => exact plain c cs hcom hstr (ih cs.length (by simp) cs rfl)

/-- A token is copied. -/
lemma Solid.blanked_eq (h : Solid rest v) : blanked (v ++ rest) = v ++ blanked rest := by
  cases h with
  | quoted hs => exact blanked_string hs
  | run hne hv hc =>
    clear hne
    induction v with
    | nil => rfl
    | cons c v ih =>
      obtain ⟨-, hq, hq'⟩ := hv c (by simp)
      have hcom := comment?_run hc
      rw [List.cons_append] at hcom ⊢
      rw [blanked_cons hcom (string?_eq_none hq hq'), ih (fun d hd => hv d (by simp [hd])) hc.tail,
        List.cons_append]

/-- A character stays in its place unless a comment begins there. -/
lemma exists_blanked (hcom : comment? (c :: cs) = none) : ∃ ds, blanked (c :: cs) = c :: ds := by
  cases hstr : string? (c :: cs) with
  | none => exact ⟨_, blanked_cons hcom hstr⟩
  | some v =>
    obtain ⟨hs, rest, hrest⟩ := string?_spells hstr
    obtain ⟨d, u, rfl⟩ := List.exists_cons_of_ne_nil hs.ne_nil
    obtain ⟨rfl, -⟩ := List.cons.inj hrest
    rw [← hrest] at hstr ⊢
    exact ⟨_, blanked_string hstr⟩

lemma head?_blanked (h : cs.head? ≠ some '/') : (blanked cs).head? = cs.head? := by
  cases cs with
  | nil => rfl
  | cons c cs =>
    have hcom : comment? (c :: cs) = none :=
      comment?_eq_none fun _ _ hc => absurd (congrArg some hc) h
    obtain ⟨ds, hds⟩ := exists_blanked hcom
    rw [hds, List.head?_cons, List.head?_cons]

/-- Some characters of a text are replaced by blanks, but no line end, and no backslash without the
character behind it. -/
inductive Dims : List Char → List Char → Prop
  | nil : Dims [] []
  | keep {c : Char} {us vs : List Char} : Dims us vs → Dims (c :: us) (c :: vs)
  | dim {c : Char} {us vs : List Char} : c ≠ '\n' → (c = '\\' → ∀ d ∈ vs.head?, d = ' ' ∨ d = '\n') →
      Dims us vs → Dims (c :: us) (' ' :: vs)

/-- The mark of a block comment ends with a slash, and a comment to the end of the line ends there. -/
lemma comment?_last (h : comment? (v ++ rest) = some v) :
    v.getLast? = some '/' ∨ ∀ d ∈ rest.head?, d = '\n' := by
  have hblock : ∀ {cs u : List Char}, blockCommentTail cs = some u → u.getLast? = some '/' := by
    intro cs u hu
    fun_induction blockCommentTail cs generalizing u with
    | case1 => cases hu
    | case2 =>
      cases hu
      rfl
    | case3 c cs _ ih =>
      obtain ⟨w, hw, rfl⟩ := Option.map_eq_some_iff.mp hu
      rw [List.getLast?_cons, ih hw, Option.getD_some]
  unfold comment? at h
  split at h
  · next cs hcs =>
    right
    have hv := Option.some.inj h
    rw [← hv, List.cons_append, List.cons_append, List.cons.injEq, List.cons.injEq] at hcs
    have hrest : cs.takeWhile (· != '\n') ++ rest = cs.takeWhile (· != '\n') ++ cs.dropWhile (· != '\n') :=
      hcs.2.2.trans List.takeWhile_append_dropWhile.symm
    rw [List.append_cancel_left hrest]
    intro d hd
    have hhead := List.head?_dropWhile_not (· != '\n') cs
    rw [Option.mem_def.mp hd] at hhead
    simpa using hhead
  · left
    obtain ⟨u, hu, rfl⟩ := Option.map_eq_some_iff.mp h
    rw [List.getLast?_cons, List.getLast?_cons, hblock hu, Option.getD_some, Option.getD_some]
  · cases h

lemma dims_spaced {rest' : List Char} (h : Dims rest rest')
    (hlast : v.getLast? = some '\\' → ∀ d ∈ rest'.head?, d = ' ' ∨ d = '\n') :
    Dims (v ++ rest) (spaced v ++ rest') := by
  induction v with
  | nil => exact h
  | cons c v ih =>
    have hv : Dims (v ++ rest) (spaced v ++ rest') := by
      apply ih
      intro hl
      exact hlast (by rw [List.getLast?_cons, hl, Option.getD_some])
    by_cases hc : c = '\n'
    · subst hc
      exact .keep hv
    · have hspaced : spaced (c :: v) = ' ' :: spaced v := by simp [spaced, hc]
      rw [hspaced]
      refine .dim hc (fun hb d hd => ?_) hv
      cases v with
      | nil => exact hlast (by rw [hb]; rfl) d hd
      | cons e v =>
        have hd' : (if e = '\n' then e else ' ') = d := Option.some.inj hd
        split_ifs at hd' with he
        · exact Or.inr (hd'.symm.trans he)
        · exact Or.inl hd'.symm

theorem dims_blanked (cs : List Char) : Dims cs (blanked cs) := by
  induction cs using blanked_induction with
  | nil => exact .nil
  | comment v rest hcom ih =>
    rw [blanked_comment hcom]
    refine dims_spaced ih fun hlast d hd => Or.inr ?_
    rcases comment?_last hcom with hslash | hnewline
    · rw [hslash] at hlast
      exact absurd hlast (by decide)
    · have hhead : rest.head? ≠ some '/' := fun hs => absurd (hnewline '/' hs) (by decide)
      rw [head?_blanked hhead] at hd
      exact hnewline d hd
  | string v rest hstr ih =>
    rw [blanked_string hstr]
    clear hstr
    induction v with
    | nil => exact ih
    | cons c v ihv => exact .keep ihv
  | plain c cs hcom hstr ih =>
    rw [blanked_cons hcom hstr]
    exact .keep ih

lemma blockCommentTail_cons : blockCommentTail (c :: cs) = none ↔
    ¬ (c = '*' ∧ cs.head? = some '/') ∧ blockCommentTail cs = none := by
  by_cases h : c = '*' ∧ cs.head? = some '/'
  · obtain ⟨rfl, hslash⟩ := h
    obtain ⟨ds, rfl⟩ := List.head?_eq_some_iff.mp hslash
    simp [blockCommentTail]
  · rw [blockCommentTail]
    · simp [h]
    · rintro ds rfl rfl
      exact h ⟨rfl, rfl⟩

lemma Dims.head?_eq {us vs : List Char} (h : Dims us vs) (hc : c ≠ ' ') (hv : vs.head? = some c) :
    us.head? = some c := by
  cases h with
  | nil => exact hv
  | keep _ => exact hv
  | dim _ _ _ => exact absurd (Option.some.inj hv).symm hc

/-- No end mark of a block comment comes into being. -/
lemma Dims.blockCommentTail_eq {us vs : List Char} (h : Dims us vs) (hus : blockCommentTail us = none) :
    blockCommentTail vs = none := by
  induction h with
  | nil => rfl
  | keep hd ih =>
    rw [blockCommentTail_cons] at hus ⊢
    exact ⟨fun hv => hus.1 ⟨hv.1, hd.head?_eq (by decide) hv.2⟩, ih hus.2⟩
  | dim _ _ _ ih =>
    rw [blockCommentTail_cons] at hus ⊢
    exact ⟨fun hv => absurd hv.1 (by decide), ih hus.2⟩

section Quoted

variable {q : Char}

lemma stringTail_escape :
    stringTail q ('\\' :: c :: cs) = none ↔ c = '\n' ∨ stringTail q cs = none := by
  simp [stringTail, imp_iff_not_or]

lemma stringTail_plain (hb : c ≠ '\\') :
    stringTail q (c :: cs) = none ↔ c ≠ q ∧ (c = '\n' ∨ stringTail q cs = none) := by
  rw [stringTail]
  · by_cases hq : c = q
    · simp [hq]
    · simp [hq, hb, imp_iff_not_or]
  · intro _ _ h
    exact absurd h hb

section Quote

variable (hq : q = '"' ∨ q = '\x27')
include hq

lemma stringTail_blank (h : stringTail q cs = none) : stringTail q (' ' :: cs) = none := by
  refine (stringTail_plain (by decide)).mpr ⟨?_, Or.inr h⟩
  rcases hq with rfl | rfl <;> decide

lemma stringTail_newline : stringTail q ('\n' :: cs) = none := by
  refine (stringTail_plain (by decide)).mpr ⟨?_, Or.inl rfl⟩
  rcases hq with rfl | rfl <;> decide

/-- No end of a string comes into being: a quote that was escaped still is, unless it has gone. -/
lemma Dims.stringTail_eq {us vs : List Char} (h : Dims us vs) (hus : stringTail q us = none) :
    stringTail q vs = none := by
  fun_induction stringTail q us generalizing vs with
  | case1 =>
    cases h
    rfl
  | case2 cs =>
    cases h with
    | keep h =>
      cases h with
      | keep _ => exact stringTail_escape.mpr (Or.inl rfl)
      | dim hn _ _ => exact absurd rfl hn
    | dim _ _ h =>
      cases h with
      | keep _ => exact stringTail_blank hq (stringTail_newline hq)
      | dim hn _ _ => exact absurd rfl hn
  | case3 c cs hc ih =>
    rw [Option.map_eq_none_iff] at hus
    cases h with
    | keep h =>
      cases h with
      | keep h => exact stringTail_escape.mpr (Or.inr (ih h hus))
      | dim _ _ h => exact stringTail_escape.mpr (Or.inr (ih h hus))
    | dim _ hb h =>
      -- The escaped character is blanked with the backslash, or is a blank itself.
      cases h with
      | keep h =>
        rcases hb rfl c rfl with rfl | rfl
        · exact stringTail_blank hq (stringTail_blank hq (ih h hus))
        · exact absurd rfl hc
      | dim _ _ h => exact stringTail_blank hq (stringTail_blank hq (ih h hus))
  | case4 cs _ => cases hus
  | case5 c cs hlone hcq hc =>
    simp only [Bool.or_eq_true, decide_eq_true_eq] at hc
    rcases hc with rfl | rfl
    · cases h with
      | keep _ => exact stringTail_newline hq
      | dim hn _ _ => exact absurd rfl hn
    · cases cs with
      | cons d ds => exact absurd rfl (hlone d ds rfl)
      | nil =>
        cases h with
        | keep h =>
          cases h
          simp [stringTail, hcq]
        | dim _ _ h =>
          cases h
          exact stringTail_blank hq rfl
  | case6 c cs _ hcq hc ih =>
    rw [Option.map_eq_none_iff] at hus
    simp only [Bool.or_eq_true, decide_eq_true_eq, not_or] at hc
    cases h with
    | keep h => exact (stringTail_plain hc.2).mpr ⟨hcq, Or.inr (ih h hus)⟩
    | dim _ _ h => exact stringTail_blank hq (ih h hus)

end Quote

end Quoted

lemma exists_mark (h : comment? cs = some v) : ∃ d u, v = '/' :: d :: u ∧ (d = '/' ∨ d = '*') := by
  unfold comment? at h
  split at h
  · cases h
    exact ⟨_, _, rfl, Or.inl rfl⟩
  · obtain ⟨u, -, rfl⟩ := Option.map_eq_some_iff.mp h
    exact ⟨_, u, rfl, Or.inr rfl⟩
  · cases h

lemma head?_ne_slash (h : comment? ('/' :: cs) = none) : cs.head? ≠ some '/' := by
  intro hslash
  obtain ⟨ds, rfl⟩ := List.head?_eq_some_iff.mp hslash
  cases h

lemma comment?_blanked (hcom : comment? cs = none) : comment? (blanked cs) = none := by
  cases cs with
  | nil => rfl
  | cons c cs =>
    cases hstr : string? (c :: cs) with
    | some v =>
      obtain ⟨hs, rest, hrest⟩ := string?_spells hstr
      rw [← hrest] at hstr ⊢
      rw [blanked_string hstr]
      exact (Solid.quoted (string?_append hs _)).comment?_eq
    | none =>
      rw [blanked_cons hcom hstr]
      by_cases hc : c = '/'
      · subst hc
        have hslash := head?_ne_slash hcom
        by_cases hstar : cs.head? = some '*'
        · obtain ⟨ds, rfl⟩ := List.head?_eq_some_iff.mp hstar
          have htail : blockCommentTail ds = none := by simpa [comment?] using hcom
          have hds : blanked ('*' :: ds) = '*' :: blanked ds :=
            blanked_cons (comment?_eq_none fun _ _ h => absurd h (by decide))
              (string?_eq_none (by decide) (by decide))
          rw [hds]
          simpa [comment?] using (dims_blanked ds).blockCommentTail_eq htail
        · refine comment?_eq_none fun d hd _ => ?_
          rw [head?_blanked hslash] at hd
          constructor
          · rintro rfl
            exact hslash hd
          · rintro rfl
            exact hstar hd
      · exact comment?_eq_none fun _ _ h => absurd h hc

lemma string?_blanked (hcom : comment? cs = none) : string? (blanked cs) = string? cs := by
  cases hstr : string? cs with
  | some v =>
    obtain ⟨hs, rest, rfl⟩ := string?_spells hstr
    rw [blanked_string hstr, string?_append hs]
  | none =>
    cases cs with
    | nil => rfl
    | cons c cs =>
      rw [blanked_cons hcom hstr]
      by_cases hq : c = '"' ∨ c = '\x27'
      · have htail : stringTail c cs = none := by simpa [string?, hq] using hstr
        simpa [string?, hq] using (dims_blanked cs).stringTail_eq hq htail
      · rw [not_or] at hq
        exact string?_eq_none hq.1 hq.2

lemma wordRun_blanked (cs : List Char) : wordRun (blanked cs) = wordRun cs := by
  induction cs using blanked_induction with
  | nil => rfl
  | comment v rest hcom _ =>
    rw [blanked_comment hcom]
    obtain ⟨d, u, rfl, hd⟩ := exists_mark hcom
    simp [spaced, wordRun, endsWord, Text.isBlank, hd]
  | string v rest hstr _ =>
    rw [blanked_string hstr]
    obtain ⟨hs, -⟩ := string?_spells hstr
    cases hs with
    | fixed h => cases h
    | string hq _ =>
      rcases hq with rfl | rfl
      · simp [wordRun, endsWord]
      · simp [wordRun, endsWord]
  | plain c cs hcom hstr ih =>
    rw [blanked_cons hcom hstr, wordRun, wordRun, ih]
    have hends : endsWord c (blanked cs) = endsWord c cs := by
      by_cases hc : c = '/'
      · subst hc
        rw [endsWord, endsWord, head?_blanked (head?_ne_slash hcom)]
      · simp [endsWord, beq_eq_false_iff_ne.mpr hc]
    rw [hends]

lemma takeWhile_blanked (cs : List Char) : (blanked cs).takeWhile isPlain = cs.takeWhile isPlain := by
  induction cs using blanked_induction with
  | nil => rfl
  | comment v rest hcom _ =>
    rw [blanked_comment hcom]
    obtain ⟨d, u, rfl, -⟩ := exists_mark hcom
    simp [spaced, isPlain, isSpace]
  | string v rest hstr ih =>
    rw [blanked_string hstr, List.takeWhile_append, List.takeWhile_append, ih]
  | plain c cs hcom hstr ih =>
    rw [blanked_cons hcom hstr, List.takeWhile_cons, List.takeWhile_cons, ih]

/-- Where neither a comment nor a blank stands, the same lexeme is read in the blanked text. -/
lemma lexeme?_blanked (o : Offer) (hcom : comment? (c :: cs) = none) (hspace : isSpace c = false) :
    o.lexeme? (blanked (c :: cs)) = o.lexeme? (c :: cs) := by
  have hblank : space? (blanked (c :: cs)) = space? (c :: cs) := by
    obtain ⟨ds, hds⟩ := exists_blanked hcom
    rw [hds, space?_eq_none hspace, space?_eq_none hspace]
  exact Offer.lexeme?_congr ((comment?_blanked hcom).trans hcom.symm) (string?_blanked hcom)
    (wordRun_blanked _) hblank (takeWhile_blanked _)

lemma isSpace_of_mem_spaced : ∀ c ∈ spaced v, isSpace c = true := by
  intro c hc
  obtain ⟨d, -, rfl⟩ := List.mem_map.mp hc
  split_ifs with hd
  · rw [hd]
    rfl
  · rfl

@[simp] lemma after_spaced (p : Position) (v : List Char) : p.after (spaced v) = p.after v := by
  unfold Position.after spaced
  rw [List.foldl_map]
  congr 1
  funext q c
  by_cases hc : c = '\n'
  · rw [if_pos hc]
  · simp [Position.next, hc]

namespace Reader

/-- The reader without the comments that it has kept. -/
def mute (r : Reader) : Reader := { r with comments := [] }

lemma accept_mute (r : Reader) (k : Terminal) (v : List Char) :
    r.mute.accept (.token k v) = (r.accept (.token k v)).map mute := by
  unfold accept
  cases hs : r.stack.shift? ⟨k, v, r.position⟩ with
  | none => simp [mute, hs, Except.map, fail]
  | some s => simp [mute, hs, Except.map]

/-- The blanked text is refused where the text is. -/
lemma run_blanked_of_none {r : Reader} (hcom : comment? (c :: cs) = none) (hspace : isSpace c = false)
    (hlex : r.stack.top.offer.lexeme? (c :: cs) = none) :
    r.mute.run 0 (blanked (c :: cs)) = (r.run 0 (c :: cs)).map mute := by
  obtain ⟨ds, hds⟩ := exists_blanked hcom
  have hsame := fun o : Offer => lexeme?_blanked o hcom hspace
  rw [hds] at hsame ⊢
  have hlex' : r.mute.stack.top.offer.lexeme? (c :: ds) = none := (hsame _).trans hlex
  have hrefuse : r.mute.refuse c ds = r.refuse c cs := by
    unfold refuse
    rw [hsame]
    rfl
  rw [run, hlex', run, hlex]
  simp only [hrefuse]
  rfl

/-- A token is accepted or refused in both texts, and what is behind it decides the rest. -/
lemma run_blanked_of_token {r : Reader} {k : Terminal} (hv : v ≠ [])
    (hlex : r.stack.top.offer.lexeme? (v ++ rest) = some (.token k v))
    (hlex' : r.stack.top.offer.lexeme? (v ++ blanked rest) = some (.token k v))
    (hrest : ∀ next : Reader, next.mute.run 0 (blanked rest) = (next.run 0 rest).map mute) :
    r.mute.run 0 (v ++ blanked rest) = (r.run 0 (v ++ rest)).map mute := by
  have haccept := r.accept_mute k v
  cases ha : r.accept (.token k v) with
  | error e =>
    rw [ha] at haccept
    have hrun : r.run 0 (v ++ rest) = .error e := run_refused (l := .token k v) hv hlex ha
    rw [hrun]
    exact run_refused (l := .token k v) hv hlex' haccept
  | ok next =>
    rw [ha] at haccept
    have hrun : r.run 0 (v ++ rest) = next.run 0 rest := run_lexeme (l := .token k v) hv hlex ha
    have hrun' : r.mute.run 0 (v ++ blanked rest) = next.mute.run 0 (blanked rest) :=
      run_lexeme (l := .token k v) hv hlex' haccept
    rw [hrun, hrun', hrest]

/-- The blanked text is read as the text is, but no comments are kept. -/
theorem run_blanked (r : Reader) (cs : List Char) :
    r.mute.run 0 (blanked cs) = (r.run 0 cs).map mute := by
  -- The induction is on the length, since a step takes a whole lexeme.
  induction hn : cs.length using Nat.strong_induction_on generalizing cs r with
  | _ n ih =>
    subst hn
    cases cs with
    | nil => rfl
    | cons c cs =>
      cases hcom : comment? (c :: cs) with
      | some v =>
        obtain ⟨hne, rest, hrest⟩ := comment?_spec hcom
        have hpos := List.length_pos_iff.mpr hne
        rw [← hrest] at hcom ih ⊢
        rw [blanked_comment hcom, run_spaces isSpace_of_mem_spaced, after_spaced, run_comment hcom]
        exact ih rest.length (by rw [List.length_append]; omega)
          { r with position := r.position.after v, comments := ⟨v, r.position⟩ :: r.comments } rest rfl
      | none =>
        by_cases hspace : isSpace c = true
        · have hpass : ∀ (r : Reader) (rest : List Char), r.run 0 (c :: rest) =
              { r with position := r.position.after [c] }.run 0 rest :=
            fun r rest => @run_spaces r rest [c] (by simpa using hspace)
          rw [blanked_cons hcom (string?_of_isSpace hspace), hpass, hpass]
          exact ih cs.length (by simp) { r with position := r.position.after [c] } cs rfl
        · rw [Bool.not_eq_true] at hspace
          cases hlex : r.stack.top.offer.lexeme? (c :: cs) with
          | none => exact run_blanked_of_none hcom hspace hlex
          | some l =>
            rcases Offer.lexeme?_cases hlex with ⟨v, hv, -⟩ | ⟨v, hv, -⟩ | ⟨k, v, rest, rfl, hcs, hk, hsolid⟩
            · rw [hcom] at hv
              cases hv
            · rw [space?_eq_none hspace] at hv
              cases hv
            · have hlex' := (lexeme?_blanked _ hcom hspace).trans hlex
              rw [hcs] at hlex hlex' ih ⊢
              rw [hsolid.blanked_eq] at hlex' ⊢
              have hpos := List.length_pos_iff.mpr hk.ne_nil
              refine run_blanked_of_token hk.ne_nil hlex hlex' fun next => ?_
              exact ih rest.length (by rw [List.length_append]; omega) next rest rfl

end Reader

/-- The blanked text is parsed to the tree without its comments, or refused for the same reason. -/
theorem parse_blanked (text : String) : parse (blank text) = (parse text).map Node.withoutComments := by
  have hrun := Reader.start.run_blanked text.toList
  rw [show Reader.start.mute = Reader.start from rfl] at hrun
  unfold parse read
  rw [blank, String.toList_ofList, hrun]
  cases Reader.start.run 0 text.toList with
  | error e => rfl
  | ok r =>
    have hfinish : r.mute.finish = r.finish := rfl
    simp only [Except.map, bind, Except.bind, pure, Except.pure, hfinish]
    cases r.finish with
    | error e => rfl
    | ok t => simp [Reader.mute, Tree.withoutComments_toNode]

end Stubsmith.Proto
