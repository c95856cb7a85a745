import Stubsmith.Proofs.Text.Encoding
import Stubsmith.Proofs.Text.Joining
import Stubsmith.Writer.Python

/-!
# What cannot be rendered or written

A docstring needs a first line. Comments without any line are either none, and then there is no docstring, or one that
is empty: this alone keeps a method, and with it a service, from being rendered. What is rendered holds half a character
exactly if the base name or a comment does, and then it cannot be written.
-/
namespace Stubsmith.Python

open Text (CodePoint)

variable {comments ls : List (List CodePoint)} {base text : List CodePoint} {m : Method} {s : Service} {n : Nat}

/-- Only the empty comment has no line. -/
lemma docLines_eq_nil : docLines comments = [] ↔ comments = [] ∨ comments = [[]] := by
  have hescape : ∀ c, escapeDoc c ≠ [] := by
    intro c
    unfold escapeDoc
    split_ifs
    · simp
    · simp
  have hjoined : ∀ cs : List CodePoint, cs.flatMap escapeDoc = [] ↔ cs = [] := by
    intro cs
    rw [List.flatMap_eq_nil_iff, List.eq_nil_iff_forall_not_mem]
    exact forall₂_congr fun c _ => by simp [hescape c]
  rw [docLines, Text.lines_eq_nil, hjoined, Text.joinWith_eq_nil (by decide)]

lemma docstring_eq_none {indent : List CodePoint} : docstring comments indent = none ↔ docLines comments = [] := by
  unfold docstring
  cases docLines comments with
  | nil => simp
  | cons l ls => cases ls <;> simp

lemma methodLines_eq_none : methodLines m = none ↔ m.comments = [[]] := by
  unfold methodLines
  by_cases hnone : m.comments = []
  · simp [hnone]
  · have hdoc : docstring m.comments (indent ++ indent) = none ↔ m.comments = [[]] := by
      rw [docstring_eq_none, docLines_eq_nil]
      simp [hnone]
    rw [← hdoc]
    cases docstring m.comments (indent ++ indent) <;> simp [hnone]

/-- A service is rendered unless the only comment of a method is empty. -/
lemma render_eq_none : render s base = none ↔ ∃ m ∈ s.methods, m.comments = [[]] := by
  have hmethods : ∀ ms : List Method, ms.mapM methodLines = none ↔ ∃ m ∈ ms, m.comments = [[]] := by
    intro ms
    induction ms with
    | nil => simp
    | cons m ms ih =>
      rw [List.mapM_cons]
      cases hm : methodLines m with
      | none => simp [methodLines_eq_none.mp hm]
      | some ls =>
        have hne : m.comments ≠ [[]] := fun h => by simp [methodLines_eq_none.mpr h] at hm
        cases hms : ms.mapM methodLines with
        | none => simp [← ih, hms]
        | some lss => simp [← ih, hms, hne]
  unfold render
  rw [← hmethods]
  cases s.methods.mapM methodLines <;> simp

/-- Half a character stands between the quotes of a docstring exactly if it stands in a comment. -/
lemma half_mem_docLines : (∃ l ∈ docLines comments, .half n ∈ l) ↔ ∃ c ∈ comments, .half n ∈ c := by
  have hescape : ∀ p, .half n ∈ escapeDoc p ↔ p = .half n := by
    intro p
    unfold escapeDoc
    split_ifs <;> simp [eq_comm]
  rw [docLines, Text.exists_mem_lines (by rfl), List.mem_flatMap]
  simp [hescape, Text.mem_joinWith]

lemma half_mem_docstring {indent : List CodePoint} (hindent : .half n ∉ indent)
    (h : docstring comments indent = some ls) : (∃ l ∈ ls, .half n ∈ l) ↔ ∃ c ∈ comments, .half n ∈ c := by
  have hquotes : .half n ∉ tripleQuote := by simp [tripleQuote, Text.points]
  have hfilled : ∀ l : List CodePoint, ¬ l = [] ∧ .half n ∈ l ↔ .half n ∈ l :=
    fun l => and_iff_right_of_imp List.ne_nil_of_mem
  refine Iff.trans ?_ half_mem_docLines
  unfold docstring at h
  split at h
  · cases h
  · next hdoc =>
    cases h
    simp [hdoc, hindent, hquotes]
  · next hdoc =>
    cases h
    simp [hdoc, hindent, hquotes, hfilled]

/-- The names of a method are texts of characters, so a half in its lines stands in a comment. -/
lemma half_mem_methodLines (h : methodLines m = some ls) :
    (∃ l ∈ ls, .half n ∈ l) ↔ ∃ c ∈ m.comments, .half n ∈ c := by
  have hpoints : ∀ cs, .half n ∉ Text.points cs := by simp [Text.points]
  have hindent : .half n ∉ indent := hpoints _
  unfold methodLines at h
  dsimp only at h
  split_ifs at h with hnone
  · cases h
    simp [hpoints, hindent, List.isEmpty_iff.mp hnone]
  · obtain ⟨doc, hdoc, hls⟩ := Option.bind_eq_some_iff.mp h
    cases hls
    rw [← half_mem_docstring (by simp [hindent]) hdoc]
    simp [hpoints, hindent]

/-- What is rendered holds half a character exactly if the base name or a comment does. -/
lemma half_mem_render (h : render s base = some text) :
    .half n ∈ text ↔ .half n ∈ base ∨ ∃ m ∈ s.methods, ∃ c ∈ m.comments, .half n ∈ c := by
  have hpoints : ∀ cs, .half n ∉ Text.points cs := by simp [Text.points]
  have hmodule : .half n ∈ moduleName base ↔ .half n ∈ base := by
    rw [moduleName, List.mem_map]
    constructor
    · rintro ⟨p, hp, he⟩
      split_ifs at he
      exact he ▸ hp
    · exact fun hn => ⟨_, hn, by simp⟩
  have hmethods : ∀ (ms : List Method) lss, ms.mapM methodLines = some lss →
      ((∃ ls ∈ lss, ∃ l ∈ ls, .half n ∈ l) ↔ ∃ m ∈ ms, ∃ c ∈ m.comments, .half n ∈ c) := by
    intro ms
    induction ms with
    | nil => simp
    | cons m ms ih =>
      intro lss hlss
      rw [List.mapM_cons] at hlss
      obtain ⟨ls, hls, hothers⟩ := Option.bind_eq_some_iff.mp hlss
      obtain ⟨rest, hrest, heq⟩ := Option.bind_eq_some_iff.mp hothers
      cases heq
      simp only [List.mem_cons, exists_eq_or_imp]
      exact or_congr (half_mem_methodLines hls) (ih rest hrest)
  obtain ⟨lss, hlss, htext⟩ := Option.bind_eq_some_iff.mp h
  cases htext
  have hhead : (∃ l ∈ headLines s.name base, .half n ∈ l) ↔ .half n ∈ base := by
    simp [headLines, hpoints, hmodule, show .half n ∉ indent from hpoints _]
  have hbody : (∃ l ∈ lss.flatMap ([] :: ·), .half n ∈ l) ↔ ∃ ls ∈ lss, ∃ l ∈ ls, .half n ∈ l := by
    simp only [List.mem_flatMap, List.mem_cons]
    constructor
    · rintro ⟨l, ⟨ls, hls, rfl | hl⟩, hn⟩
      · cases hn
      · exact ⟨ls, hls, l, hl, hn⟩
    · rintro ⟨ls, hls, l, hl, hn⟩
      exact ⟨l, ⟨ls, hls, Or.inr hl⟩, hn⟩
  rw [← hmethods s.methods lss hlss, ← hhead, ← hbody]
  simp

end Stubsmith.Python
