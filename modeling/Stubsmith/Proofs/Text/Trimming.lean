import Mathlib.Data.List.DropRight
import Stubsmith.Text.Blank
import Stubsmith.Text.Lines

/-!
# Trimming and cutting texts

A text without blanks at its ends is trimmed already, and nothing is left of one that is blank throughout. A lead or
a tail is dropped where it stands. The lines of a text are cut from its code points, and only the empty text has none.
-/
namespace Stubsmith.Text

variable {ps : List CodePoint}

lemma trimLead_eq (h : ∀ p ∈ ps.head?, p.isBlank = false) : trimLead ps = ps := by
  cases ps with
  | nil => rfl
  | cons p ps => exact List.dropWhile_cons_of_neg (by simpa using h p rfl)

/-- Without blanks at its head, a text loses only those at its end. -/
lemma trim_isPrefix (h : ∀ p ∈ ps.head?, p.isBlank = false) : trim ps <+: ps := by
  rw [trim, trimLead_eq h, ← List.reverse_suffix, List.reverse_reverse]
  exact List.dropWhile_suffix _

lemma trim_eq (h : ∀ p ∈ ps.head?, p.isBlank = false) (h' : ∀ p ∈ ps.getLast?, p.isBlank = false) :
    trim ps = ps := by
  rw [trim, trimLead_eq h, trimLead_eq fun p hp => h' p (by simpa using hp), List.reverse_reverse]

lemma trim_eq_nil (h : ∀ p ∈ ps, p.isBlank = true) : trim ps = [] := by
  have hlead : trimLead ps = [] := by simpa [trimLead] using h
  rw [trim, hlead]
  rfl

section Cut

variable {α : Type} [DecidableEq α] {cs : List α}

lemma dropLead_append (lead : List α) : dropLead lead (lead ++ cs) = cs := by
  simp [dropLead]

lemma dropLead_of_not_prefix {lead : List α} (h : ¬ lead <+: cs) : dropLead lead cs = cs := by
  simp [dropLead, h]

lemma dropTail_append (tail : List α) : dropTail tail (cs ++ tail) = cs := by
  simp [dropTail]

end Cut

lemma joinWith_eq_intercalate {α : Type} (sep : List α) (ts : List (List α)) :
    joinWith sep ts = sep.intercalate ts := by
  fun_induction joinWith sep ts with
  | case1 => rfl
  | case2 t => simp
  | case3 t u ts ih => simp [ih]

lemma joinWith_eq_nil {α : Type} {sep : List α} (hsep : sep ≠ []) {ts : List (List α)} :
    joinWith sep ts = [] ↔ ts = [] ∨ ts = [[]] := by
  fun_cases joinWith sep ts with
  | case1 => simp
  | case2 t => simp
  | case3 t u ts => simp [hsep]

lemma lines_eq_nil : lines ps = [] ↔ ps = [] := by
  fun_cases lines ps with
  | case1 => simp
  | case2 cs => simp
  | case3 c cs h hb => simp
  | case4 c cs h hb hnone => simp
  | case5 c cs h hb l ls hsome => simp

/-- The code points of the lines stand in the text. -/
lemma mem_of_mem_lines {l : List CodePoint} {p : CodePoint} (hl : l ∈ lines ps) (hc : p ∈ l) : p ∈ ps := by
  fun_induction lines ps generalizing l with
  | case1 => cases hl
  | case2 cs ih =>
    rcases List.mem_cons.mp hl with rfl | hl
    · cases hc
    · simp [ih hl hc]
  | case3 d cs h hb ih =>
    rcases List.mem_cons.mp hl with rfl | hl
    · cases hc
    · simp [ih hl hc]
  | case4 d cs h hb hnone ih =>
    rw [List.mem_singleton.mp hl, List.mem_singleton] at hc
    simp [hc]
  | case5 d cs h hb l ls hsome ih =>
    rw [hsome] at ih
    rcases List.mem_cons.mp hl with rfl | hl
    · rcases List.mem_cons.mp hc with rfl | hc
      · simp
      · simp [ih (List.mem_cons_self ..) hc]
    · simp [ih (List.mem_cons_of_mem _ hl) hc]

end Stubsmith.Text
