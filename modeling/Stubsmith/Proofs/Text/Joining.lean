import Stubsmith.Proofs.Text.Trimming

/-!
# Texts cut and joined

A text is cut into lines at its line breaks, and into fields at a separator. Texts without the separator come back from
what they are joined to.
-/
namespace Stubsmith.Text

lemma lines_break {p : CodePoint} {ps : List CodePoint} (hb : p.isLineBreak = true)
    (h : p = .char '\r' → ps.head? ≠ some (.char '\n')) : lines (p :: ps) = [] :: lines ps := by
  rw [lines, if_pos hb]
  rintro ds rfl rfl
  exact h rfl rfl

lemma lines_plain {p : CodePoint} (hb : p.isLineBreak = false) (ps : List CodePoint) :
    lines (p :: ps) = (p :: (lines ps).headD []) :: (lines ps).tail := by
  rw [lines, if_neg (by simp [hb])]
  · cases lines ps <;> rfl
  · rintro ds rfl rfl
    exact absurd hb (by decide)

/-- A line holds no line break. -/
lemma isLineBreak_of_mem_lines {ps l : List CodePoint} {p : CodePoint} (hl : l ∈ lines ps) (hc : p ∈ l) :
    p.isLineBreak = false := by
  fun_induction lines ps generalizing l with
  | case1 => cases hl
  | case2 cs ih =>
    rcases List.mem_cons.mp hl with rfl | hl
    · cases hc
    · exact ih hl hc
  | case3 d cs h hb ih =>
    rcases List.mem_cons.mp hl with rfl | hl
    · cases hc
    · exact ih hl hc
  | case4 d cs h hb hnone ih =>
    rw [List.mem_singleton.mp hl, List.mem_singleton] at hc
    simpa [hc] using hb
  | case5 d cs h hb l ls hsome ih =>
    rw [hsome] at ih
    rcases List.mem_cons.mp hl with rfl | hl
    · rcases List.mem_cons.mp hc with rfl | hc
      · simpa using hb
      · exact ih (List.mem_cons_self ..) hc
    · exact ih (List.mem_cons_of_mem _ hl) hc

/-- The code points that end no line are those in the lines. -/
lemma exists_mem_lines {p : CodePoint} (h : p.isLineBreak = false) (ps : List CodePoint) :
    (∃ l ∈ lines ps, p ∈ l) ↔ p ∈ ps := by
  have hne : ∀ {q : CodePoint}, q.isLineBreak = true → p ≠ q := fun hq he => by simp [he, hq] at h
  fun_induction lines ps with
  | case1 => simp
  | case2 ps ih => simp [ih, @hne (.char '\r') rfl, @hne (.char '\n') rfl]
  | case3 q ps _ hq ih => simp [ih, hne hq]
  | case4 q ps _ _ hnone ih =>
    rw [hnone] at ih
    simp [← ih]
  | case5 q ps _ _ l ls hsome ih =>
    simp only [hsome, List.mem_cons, exists_eq_or_imp] at ih ⊢
    exact or_assoc.trans (or_congr_right ih)

section Fields

variable {α : Type} [DecidableEq α]

lemma fields_ne_nil (sep : α) (cs : List α) : fields sep cs ≠ [] := by
  cases cs with
  | nil => simp [fields]
  | cons c cs =>
    rw [fields]
    split
    · split_ifs <;> simp
    · simp

lemma fields_cons (sep c : α) (cs : List α) : fields sep (c :: cs) =
    if c = sep then [] :: fields sep cs else (c :: (fields sep cs).headD []) :: (fields sep cs).tail := by
  obtain ⟨f, fs, hfields⟩ := List.exists_cons_of_ne_nil (fields_ne_nil sep cs)
  rw [fields, hfields]
  rfl

/-- No field holds the separator. -/
lemma not_mem_of_mem_fields {sep : α} {cs t : List α} (ht : t ∈ fields sep cs) : sep ∉ t := by
  induction cs generalizing t with
  | nil =>
    rw [List.mem_singleton.mp ht]
    exact List.not_mem_nil
  | cons c cs ih =>
    obtain ⟨f, fs, hfields⟩ := List.exists_cons_of_ne_nil (fields_ne_nil sep cs)
    rw [fields_cons] at ht
    rw [hfields] at ih ht
    split_ifs at ht with hc
    · rcases List.mem_cons.mp ht with rfl | ht
      · exact List.not_mem_nil
      · exact ih ht
    · rcases List.mem_cons.mp ht with rfl | ht
      · rw [List.mem_cons, not_or]
        exact ⟨Ne.symm hc, ih (List.mem_cons_self ..)⟩
      · exact ih (List.mem_cons_of_mem f ht)

lemma fields_of_not_mem {sep : α} {t : List α} (h : sep ∉ t) : fields sep t = [t] := by
  induction t with
  | nil => rfl
  | cons c t ih =>
    rw [List.mem_cons, not_or] at h
    rw [fields_cons, if_neg (Ne.symm h.1), ih h.2]
    rfl

lemma fields_append {sep : α} {t : List α} (h : sep ∉ t) (cs : List α) :
    fields sep (t ++ sep :: cs) = t :: fields sep cs := by
  induction t with
  | nil => rw [List.nil_append, fields_cons, if_pos rfl]
  | cons c t ih =>
    rw [List.mem_cons, not_or] at h
    rw [List.cons_append, fields_cons, if_neg (Ne.symm h.1), ih h.2]
    rfl

/-- Joined texts are told apart by the separator that none of them holds. -/
lemma fields_joinWith {sep : α} {ts : List (List α)} (hne : ts ≠ []) (h : ∀ t ∈ ts, sep ∉ t) :
    fields sep (joinWith [sep] ts) = ts := by
  fun_induction joinWith [sep] ts with
  | case1 => exact absurd rfl hne
  | case2 t => exact fields_of_not_mem (h t (List.mem_singleton_self t))
  | case3 t u ts ih =>
    rw [List.forall_mem_cons] at h
    rw [List.append_assoc, List.singleton_append, fields_append h.1, ih (List.cons_ne_nil u ts) h.2]

/-- Texts that each end in the separator come back, with nothing behind the last of them. -/
lemma fields_ended {sep : α} {ts : List (List α)} (h : ∀ t ∈ ts, sep ∉ t) :
    fields sep (ts.flatMap (· ++ [sep])) = ts ++ [[]] := by
  induction ts with
  | nil => rfl
  | cons t ts ih =>
    rw [List.forall_mem_cons] at h
    rw [List.flatMap_cons, List.append_assoc, List.singleton_append, fields_append h.1, ih h.2, List.cons_append]

end Fields

section Join

variable {α : Type}

lemma mem_joinWith {sep : List α} {a : α} (h : a ∉ sep) (ts : List (List α)) :
    a ∈ joinWith sep ts ↔ ∃ t ∈ ts, a ∈ t := by
  fun_induction joinWith sep ts with
  | case1 => simp
  | case2 t => simp
  | case3 t u ts ih => simp [ih, h]

lemma joinWith_concat (sep t : List α) {ts : List (List α)} (hne : ts ≠ []) :
    joinWith sep (ts ++ [t]) = joinWith sep ts ++ sep ++ t := by
  fun_induction joinWith sep ts with
  | case1 => exact absurd rfl hne
  | case2 u => rfl
  | case3 u v ts ih =>
    rw [List.cons_append, List.cons_append, joinWith, ← List.cons_append, ih (List.cons_ne_nil v ts)]
    simp only [List.append_assoc]

lemma joinWith_lead (sep a t : List α) (ts : List (List α)) :
    joinWith sep ((a ++ t) :: ts) = a ++ joinWith sep (t :: ts) := by
  cases ts with
  | nil => rfl
  | cons u ts => simp [joinWith]

lemma joinWith_tail (sep t b : List α) (ts : List (List α)) :
    joinWith sep (ts ++ [t ++ b]) = joinWith sep (ts ++ [t]) ++ b := by
  induction ts with
  | nil => rfl
  | cons u ts ih =>
    obtain ⟨v, vs, hvs⟩ := List.exists_cons_of_ne_nil (show ts ++ [t] ≠ [] by simp)
    obtain ⟨w, ws, hws⟩ := List.exists_cons_of_ne_nil (show ts ++ [t ++ b] ≠ [] by simp)
    rw [hvs, hws] at ih
    rw [List.cons_append, List.cons_append, hvs, hws, joinWith, joinWith, ih, List.append_assoc _ _ b]

lemma flatMap_joinWith {β : Type} (f : α → List β) (sep : List α) (ts : List (List α)) :
    (joinWith sep ts).flatMap f = joinWith (sep.flatMap f) (ts.map (·.flatMap f)) := by
  fun_induction joinWith sep ts with
  | case1 => rfl
  | case2 t => rfl
  | case3 t u ts ih => simp [ih, joinWith]

end Join

end Stubsmith.Text
