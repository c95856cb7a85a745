import Stubsmith.Proofs.Text.Joining
import Stubsmith.Proofs.Writer.Rendering

/-!
# Comments inside their docstring

Inside a docstring a backslash takes the next character along, and the first double quote that is not taken along
begins the closing quotes. No comment brings such a quote with it, whatever its characters, and what is read back
between the quotes, line by line, are the lines of the comments.
-/
namespace Stubsmith.Python

open Text (CodePoint)

/-- The text up to the first double quote that no backslash takes along, and the text from there on. -/
def untilQuote : List CodePoint → List CodePoint × List CodePoint
  | [] => ([], [])
  | .char '\\' :: c :: cs => (.char '\\' :: c :: (untilQuote cs).1, (untilQuote cs).2)
  | c :: cs => if c = .char '"' then ([], c :: cs) else (c :: (untilQuote cs).1, (untilQuote cs).2)

/-- The text without the backslashes that take a character along. -/
def unescaped : List CodePoint → List CodePoint
  | [] => []
  | .char '\\' :: c :: cs => c :: unescaped cs
  | c :: cs => c :: unescaped cs

lemma escapeDoc_cases (c : CodePoint) :
    (c = .char '\\' ∨ c = .char '"') ∧ escapeDoc c = [.char '\\', c] ∨
      (c ≠ .char '\\' ∧ c ≠ .char '"') ∧ escapeDoc c = [c] := by
  unfold escapeDoc
  by_cases hc : c = .char '\\' ∨ c = .char '"'
  · exact Or.inl ⟨hc, by rw [if_pos (by simpa using hc)]⟩
  · exact Or.inr ⟨not_or.mp hc, by rw [if_neg (by simpa using hc)]⟩

lemma escapeDoc_of_isLineBreak {c : CodePoint} (h : c.isLineBreak = true) : escapeDoc c = [c] := by
  rcases escapeDoc_cases c with ⟨rfl | rfl, -⟩ | ⟨-, hc⟩
  · exact absurd h (by decide)
  · exact absurd h (by decide)
  · exact hc

lemma untilQuote_escaped (cs rest : List CodePoint) : untilQuote (cs.flatMap escapeDoc ++ rest) =
    (cs.flatMap escapeDoc ++ (untilQuote rest).1, (untilQuote rest).2) := by
  induction cs with
  | nil => rfl
  | cons c cs ih =>
    rw [List.flatMap_cons, List.append_assoc]
    rcases escapeDoc_cases c with ⟨-, hc⟩ | ⟨⟨hback, hquote⟩, hc⟩
    · rw [hc, List.cons_append, List.singleton_append, untilQuote, ih]
      rfl
    · rw [hc, List.singleton_append, untilQuote, if_neg hquote, ih]
      · rfl
      · intro d ds hd
        exact absurd hd hback

lemma unescaped_escaped (cs : List CodePoint) : unescaped (cs.flatMap escapeDoc) = cs := by
  induction cs with
  | nil => rfl
  | cons c cs ih =>
    rw [List.flatMap_cons]
    rcases escapeDoc_cases c with ⟨-, hc⟩ | ⟨⟨hback, -⟩, hc⟩
    · rw [hc, List.cons_append, List.singleton_append, unescaped, ih]
    · rw [hc, List.singleton_append, unescaped, ih]
      intro d ds hd
      exact absurd hd hback

lemma lines_escapeDoc {c : CodePoint} (hb : c.isLineBreak = false) (cs : List CodePoint) :
    Text.lines (escapeDoc c ++ cs) = (escapeDoc c ++ (Text.lines cs).headD []) :: (Text.lines cs).tail := by
  rcases escapeDoc_cases c with ⟨-, hc⟩ | ⟨-, hc⟩
  · rw [hc, List.cons_append, Text.lines_plain (by decide), List.singleton_append, Text.lines_plain hb]
    rfl
  · rw [hc, List.singleton_append, Text.lines_plain hb]
    rfl

/-- Escapes neither add nor remove a line break. -/
lemma lines_escaped (cs : List CodePoint) :
    Text.lines (cs.flatMap escapeDoc) = (Text.lines cs).map (·.flatMap escapeDoc) := by
  have hhead : ∀ cs : List CodePoint, (cs.flatMap escapeDoc).head? = some (.char '\n') → cs.head? = some (.char '\n') := by
    intro cs hcs
    cases cs with
    | nil => cases hcs
    | cons c cs =>
      rw [List.flatMap_cons] at hcs
      rcases escapeDoc_cases c with ⟨-, hc⟩ | ⟨-, hc⟩
      · simp [hc] at hcs
      · simpa [hc] using hcs
  fun_induction Text.lines cs with
  | case1 => rfl
  | case2 cs ih =>
    have hcr : (.char '\r' :: .char '\n' :: cs).flatMap escapeDoc = .char '\r' :: .char '\n' :: cs.flatMap escapeDoc := rfl
    rw [hcr, Text.lines, ih]
    rfl
  | case3 c cs h hb ih =>
    rw [List.flatMap_cons, escapeDoc_of_isLineBreak hb, List.singleton_append, Text.lines_break hb, ih]
    · rfl
    · intro hc hn
      obtain ⟨ds, hds⟩ := List.head?_eq_some_iff.mp (hhead cs hn)
      exact h ds hc hds
  | case4 c cs h hb hnone ih =>
    rw [List.flatMap_cons, lines_escapeDoc (by simpa using hb), ih, hnone]
    simp
  | case5 c cs h hb l ls hsome ih =>
    rw [List.flatMap_cons, lines_escapeDoc (by simpa using hb), ih, hsome]
    simp

/-- What the text between the quotes shows: its lines without escapes, those behind the first without the
indentation. Of several lines the last one only leads to the closing quotes. -/
def shownLines (indent body : List CodePoint) : List (List CodePoint) :=
  match Text.fields (.char '\n') body with
  | [] => []
  | l :: ls => unescaped l :: ls.dropLast.map fun m => unescaped (Text.dropLead indent m)

/-- The text holds no line break. -/
def Unbroken (t : List CodePoint) : Prop := ∀ c ∈ t, c.isLineBreak = false

/-- The lines `ls` are a docstring with `body` between its quotes, which shows the given texts. -/
structure Encloses (indent body : List CodePoint) (texts : List (List CodePoint)) (ls : List (List CodePoint)) : Prop where
  framed : Text.joinWith [.char '\n'] ls =
    indent ++ tripleQuote ++ body ++ tripleQuote
  /-- The first quote that is not taken along is the first of the closing quotes. -/
  ended : untilQuote (body ++ tripleQuote) = (body, tripleQuote)
  shown : shownLines indent body = texts
  closing : 1 < (Text.fields (.char '\n') body).length → (Text.fields (.char '\n') body).getLast? = some indent
  indented : ∀ l ∈ ls, l = [] ∨ indent <+: l
  unbroken : ∀ l ∈ ls, Unbroken l

/-- A line behind the first, before its escapes. -/
def continuation (indent t : List CodePoint) : List CodePoint := if t.isEmpty then [] else indent ++ t

/-- The lines between the quotes, before their escapes. -/
def plainLines (indent : List CodePoint) : List (List CodePoint) → List (List CodePoint)
  | [] => []
  | [t] => [t]
  | t :: u :: ts => t :: (u :: ts).map (continuation indent) ++ [indent]

/-- The text between the quotes. -/
def bodyOf (indent : List CodePoint) (texts : List (List CodePoint)) : List CodePoint :=
  (Text.joinWith [.char '\n'] (plainLines indent texts)).flatMap escapeDoc

section Body

variable {indent : List CodePoint} {texts : List (List CodePoint)}

lemma escaped_spaces (hindent : ∀ c ∈ indent, c = .char ' ') : indent.flatMap escapeDoc = indent := by
  induction indent with
  | nil => rfl
  | cons c cs ih =>
    rw [List.forall_mem_cons] at hindent
    rw [List.flatMap_cons, ih hindent.2, hindent.1]
    rfl

lemma escaped_continuation (hindent : ∀ c ∈ indent, c = .char ' ') (t : List CodePoint) :
    (continuation indent t).flatMap escapeDoc = continuation indent (t.flatMap escapeDoc) := by
  cases t with
  | nil => rfl
  | cons c t =>
    have hne : escapeDoc c ≠ [] := by
      rcases escapeDoc_cases c with ⟨-, hc⟩ | ⟨-, hc⟩
      · simp [hc]
      · simp [hc]
    simp [continuation, escaped_spaces hindent, hne]

lemma dropLead_continuation (t : List CodePoint) : Text.dropLead indent (continuation indent t) = t := by
  cases t with
  | nil => simp [continuation, Text.dropLead]
  | cons c t => exact Text.dropLead_append indent

lemma unbroken_append {t u : List CodePoint} : Unbroken (t ++ u) ↔ Unbroken t ∧ Unbroken u := List.forall_mem_append

lemma unbroken_spaces (hindent : ∀ c ∈ indent, c = .char ' ') : Unbroken indent := by
  intro c hc
  rw [hindent c hc]
  rfl

lemma unbroken_quotes : Unbroken tripleQuote := by
  intro c hc
  obtain rfl : c = .char '"' := by simpa [tripleQuote, Text.points] using hc
  rfl

lemma Unbroken.escaped {t : List CodePoint} (h : Unbroken t) : Unbroken (t.flatMap escapeDoc) := by
  intro c hc
  obtain ⟨d, hd, hcd⟩ := List.mem_flatMap.mp hc
  rcases escapeDoc_cases d with ⟨-, he⟩ | ⟨-, he⟩
  · rw [he, List.mem_cons, List.mem_singleton] at hcd
    rcases hcd with rfl | rfl
    · rfl
    · exact h c hd
  · rw [he, List.mem_singleton] at hcd
    rw [hcd]
    exact h d hd

lemma Unbroken.continuation {t : List CodePoint} (h : Unbroken t) (hindent : ∀ c ∈ indent, c = .char ' ') :
    Unbroken (continuation indent t) := by
  unfold Python.continuation
  split_ifs
  · intro c hc
    cases hc
  · exact unbroken_append.mpr ⟨unbroken_spaces hindent, h⟩

/-- No line between the quotes holds a line break. -/
lemma unbroken_plainLines (hindent : ∀ c ∈ indent, c = .char ' ') (htexts : ∀ t ∈ texts, Unbroken t) :
    ∀ l ∈ plainLines indent texts, Unbroken l := by
  intro l hl
  unfold plainLines at hl
  split at hl
  · cases hl
  · exact htexts l hl
  · next t u ts =>
    rw [List.cons_append, List.mem_cons, List.mem_append, List.mem_singleton] at hl
    rcases hl with rfl | hl | rfl
    · exact htexts l (List.mem_cons_self ..)
    · obtain ⟨m, hm, rfl⟩ := List.mem_map.mp hl
      exact (htexts m (List.mem_cons_of_mem t hm)).continuation hindent
    · exact unbroken_spaces hindent

lemma bodyOf_eq : bodyOf indent texts =
    Text.joinWith [.char '\n'] ((plainLines indent texts).map (·.flatMap escapeDoc)) :=
  Text.flatMap_joinWith escapeDoc [.char '\n'] _

lemma untilQuote_bodyOf : untilQuote (bodyOf indent texts ++ tripleQuote) =
    (bodyOf indent texts, tripleQuote) := by
  rw [bodyOf, untilQuote_escaped]
  simp [tripleQuote, Text.points, untilQuote]

lemma fields_bodyOf (hindent : ∀ c ∈ indent, c = .char ' ') (hne : texts ≠ [])
    (htexts : ∀ t ∈ texts, Unbroken t) : Text.fields (.char '\n') (bodyOf indent texts) =
      (plainLines indent texts).map (·.flatMap escapeDoc) := by
  rw [bodyOf_eq, Text.fields_joinWith]
  · unfold plainLines
    split <;> simp_all
  · intro l hl hn
    obtain ⟨m, hm, rfl⟩ := List.mem_map.mp hl
    exact absurd ((unbroken_plainLines hindent htexts m hm).escaped _ hn) (by decide)

/-- The lines between the quotes show the texts. -/
lemma shownLines_bodyOf (hindent : ∀ c ∈ indent, c = .char ' ') (hne : texts ≠ [])
    (htexts : ∀ t ∈ texts, Unbroken t) :
    shownLines indent (bodyOf indent texts) = texts := by
  have hback : ∀ t : List CodePoint,
      unescaped (Text.dropLead indent ((continuation indent t).flatMap escapeDoc)) = t := fun t => by
    rw [escaped_continuation hindent, dropLead_continuation, unescaped_escaped]
  unfold shownLines
  rw [fields_bodyOf hindent hne htexts]
  match texts, hne with
  | [t], _ => simp [plainLines, unescaped_escaped]
  | t :: u :: ts, _ =>
    rw [plainLines, List.cons_append, List.map_cons, List.map_append, List.map_singleton]
    simp only [List.dropLast_concat, List.map_map, Function.comp_def, hback, List.map_id', unescaped_escaped]

lemma docLines_eq (comments : List (List CodePoint)) : docLines comments =
    (Text.lines (Text.joinWith [.char '\n'] comments)).map (·.flatMap escapeDoc) :=
  lines_escaped _

/-- A docstring on one line encloses its text. -/
lemma encloses_single (hindent : ∀ c ∈ indent, c = .char ' ') {t : List CodePoint} (ht : Unbroken t) :
    Encloses indent (bodyOf indent [t]) [t]
      [indent ++ tripleQuote ++ t.flatMap escapeDoc ++ tripleQuote] where
  framed := by simp [bodyOf, plainLines, Text.joinWith]
  ended := untilQuote_bodyOf
  shown := shownLines_bodyOf hindent (by simp) (by simpa using ht)
  closing := by
    rw [fields_bodyOf hindent (by simp) (by simpa using ht)]
    simp [plainLines]
  indented := by
    intro l hl
    rw [List.mem_singleton.mp hl]
    exact Or.inr ⟨tripleQuote ++ (t.flatMap escapeDoc ++ tripleQuote), by simp⟩
  unbroken := by
    intro l hl
    rw [List.mem_singleton.mp hl]
    simpa [unbroken_append, unbroken_quotes] using ⟨unbroken_spaces hindent, ht.escaped⟩

/-- A docstring on several lines encloses its texts. -/
lemma encloses_several (hindent : ∀ c ∈ indent, c = .char ' ') {t u : List CodePoint} {ts : List (List CodePoint)}
    (htexts : ∀ v ∈ t :: u :: ts, Unbroken v) :
    Encloses indent (bodyOf indent (t :: u :: ts)) (t :: u :: ts)
      ((indent ++ tripleQuote ++ t.flatMap escapeDoc) ::
        ((u :: ts).map (·.flatMap escapeDoc)).map (continuation indent) ++ [indent ++ tripleQuote]) := by
  have hbody : (plainLines indent (t :: u :: ts)).map (·.flatMap escapeDoc) = t.flatMap escapeDoc ::
      ((u :: ts).map (·.flatMap escapeDoc)).map (continuation indent) ++ [indent] := by
    simp [plainLines, escaped_continuation hindent, escaped_spaces hindent]
  refine ⟨?_, untilQuote_bodyOf, shownLines_bodyOf hindent (by simp) htexts, ?_, ?_, ?_⟩
  · rw [bodyOf_eq, hbody]
    rw [List.cons_append, Text.joinWith_lead, ← List.cons_append, Text.joinWith_tail]
    simp
  · rw [fields_bodyOf hindent (by simp) htexts, hbody, List.getLast?_concat]
    exact fun _ => rfl
  · intro l hl
    rw [List.cons_append, List.mem_cons, List.mem_append, List.mem_singleton] at hl
    rcases hl with rfl | hl | rfl
    · exact Or.inr ⟨tripleQuote ++ t.flatMap escapeDoc, by simp⟩
    · obtain ⟨m, -, rfl⟩ := List.mem_map.mp hl
      unfold continuation
      split_ifs
      · exact Or.inl rfl
      · exact Or.inr ⟨m, by simp⟩
    · exact Or.inr ⟨tripleQuote, by simp⟩
  · intro l hl
    rw [List.forall_mem_cons] at htexts
    rw [List.cons_append, List.mem_cons, List.mem_append, List.mem_singleton] at hl
    rcases hl with rfl | hl | rfl
    · simpa [unbroken_append, unbroken_quotes] using ⟨unbroken_spaces hindent, htexts.1.escaped⟩
    · rw [List.map_map] at hl
      obtain ⟨m, hm, rfl⟩ := List.mem_map.mp hl
      exact (htexts.2 m hm).escaped.continuation hindent
    · simpa [unbroken_append, unbroken_quotes] using unbroken_spaces hindent

/-- Comments stay inside their docstring, and what is read there are their lines. -/
theorem docstring_encloses {comments : List (List CodePoint)} (hsome : comments ≠ []) (hblank : comments ≠ [[]]) (n : Nat) :
    ∃ ls body, docstring comments (List.replicate n (.char ' ')) = some ls ∧
      Encloses (List.replicate n (.char ' ')) body (Text.lines (Text.joinWith [.char '\n'] comments)) ls := by
  have hindent : ∀ c ∈ List.replicate n (CodePoint.char ' '), c = .char ' ' := fun c hc => List.eq_of_mem_replicate hc
  have hunbroken : ∀ t ∈ Text.lines (Text.joinWith [.char '\n'] comments), Unbroken t :=
    fun t ht c hc => Text.isLineBreak_of_mem_lines ht hc
  have hdoc := docLines_eq comments
  have hne : docLines comments ≠ [] := fun h => (docLines_eq_nil.mp h).elim hsome hblank
  unfold docstring
  generalize Text.lines (Text.joinWith [.char '\n'] comments) = texts at hunbroken hdoc ⊢
  rw [hdoc] at hne ⊢
  match texts with
  | [] => exact absurd rfl hne
  | [t] => exact ⟨_, _, rfl, encloses_single hindent (hunbroken t (List.mem_singleton_self t))⟩
  | t :: u :: ts => exact ⟨_, _, rfl, encloses_several hindent hunbroken⟩

end Body

/-- Comments with quotes, an empty one, backslashes before a line break and at the end, and half a character. -/
def oddComments : List (List CodePoint) :=
  ["says \"\"\"", "", "C:\\\r\nends in \\", [.half 0xD800]]

theorem oddComments_enclosed : oddComments ≠ [] ∧ oddComments ≠ [[]] ∧ ∃ ls body,
    docstring oddComments (List.replicate 8 (.char ' ')) = some ls ∧
      Encloses (List.replicate 8 (.char ' ')) body
        ["says \"\"\"", [], "C:\\", "ends in \\", [.half 0xD800]] ls := by
  have hlines : Text.lines (Text.joinWith [.char '\n'] oddComments) =
      (["says \"\"\"", [], "C:\\", "ends in \\", [.half 0xD800]] : List (List CodePoint)) := by decide +kernel
  refine ⟨by decide, by decide, ?_⟩
  rw [← hlines]
  exact docstring_encloses (by decide) (by decide) 8

end Stubsmith.Python
