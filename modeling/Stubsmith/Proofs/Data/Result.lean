import Mathlib.Data.List.Forall2
import Mathlib.Tactic.Lemma

/-!
# Results and failures

What is known of a result once it is known to be one, and what a failure leaves of a result that is worked on.
-/
namespace Stubsmith

variable {ε α β γ : Type} {x : Except ε α} {a : α} {b : β} {e : ε} {f : α → Except ε β} {as : List α}

lemma exists_ok_of_isOk (h : x.isOk = true) : ∃ a, x = .ok a := by
  cases x with
  | error e => cases h
  | ok a => exact ⟨a, rfl⟩

lemma exists_error_of_isOk (h : x.isOk = false) : ∃ e, x = .error e := by
  cases x with
  | error e => exact ⟨e, rfl⟩
  | ok a => cases h

lemma eq_ok_of_toOption (h : x.toOption = some a) : x = .ok a := by
  cases x with
  | error e => cases h
  | ok a' => rw [Option.some.inj h]

lemma exists_of_map_eq_ok {f : α → β} (h : x.map f = .ok b) : ∃ a, x = .ok a ∧ b = f a := by
  cases x with
  | error e => cases h
  | ok a => exact ⟨a, rfl, (Except.ok.inj h).symm⟩

lemma map_map_result (f : α → β) (g : β → γ) : (x.map f).map g = x.map fun a => g (f a) := by
  cases x <;> rfl

lemma mapError_eq_ok {ε' : Type} {g : ε → ε'} : x.mapError g = .ok a ↔ x = .ok a := by
  cases x <;> simp [Except.mapError]

lemma mapError_eq_error {ε' : Type} {g : ε → ε'} {e' : ε'} :
    x.mapError g = .error e' ↔ ∃ e, x = .error e ∧ g e = e' := by
  cases x <;> simp [Except.mapError]

/-- One of two steps fails, the second only if the first succeeds. -/
lemma bind_eq_error : x >>= f = .error e ↔ x = .error e ∨ ∃ y, x = .ok y ∧ f y = .error e := by
  cases x with
  | error e' => simp [bind, Except.bind]
  | ok y => simp [bind, Except.bind]

lemma error_of_map_eq {g : α → β} (h : x.map g = .error e) : x = .error e := by
  cases x with
  | error e' =>
    cases h
    rfl
  | ok a => cases h

lemma map_cons_eq {g : α → β} {a' : α} {xs ys : Except ε (List α)} (hhead : g a' = g a)
    (htail : ys.map (List.map g) = xs.map (List.map g)) :
    (ys.map (a' :: ·)).map (List.map g) = (xs.map (a :: ·)).map (List.map g) := by
  cases xs with
  | error e =>
    rw [error_of_map_eq htail]
    rfl
  | ok xs =>
    obtain ⟨ys, rfl, hlists⟩ := exists_of_map_eq_ok htail
    simp [Except.map, hhead, hlists]

/-- Work on a list succeeds if it succeeds on each member. -/
lemma mapM_forall₂ {P : α → β → Prop} (h : ∀ a ∈ as, ∃ b, f a = .ok b ∧ P a b) :
    ∃ bs, as.mapM f = .ok bs ∧ List.Forall₂ P as bs := by
  induction as with
  | nil => exact ⟨[], rfl, .nil⟩
  | cons a as ih =>
    rw [List.forall_mem_cons] at h
    obtain ⟨⟨b, hb, hP⟩, hrest⟩ := h
    obtain ⟨bs, hbs, hall⟩ := ih hrest
    refine ⟨b :: bs, ?_, .cons hP hall⟩
    rw [List.mapM_cons, hb, hbs]
    rfl

/-- Work on a list fails if it fails on a member, and as it does there if it can only fail in one way. -/
lemma mapM_eq_error (hway : ∀ a ∈ as, (∃ b, f a = .ok b) ∨ f a = .error e) (h : ∃ a ∈ as, f a = .error e) :
    as.mapM f = .error e := by
  induction as with
  | nil => simp at h
  | cons a as ih =>
    rw [List.forall_mem_cons] at hway
    rw [List.mapM_cons]
    rcases hway.1 with ⟨b, hb⟩ | hfails
    · have hrest : ∃ a ∈ as, f a = .error e := by simpa [hb] using h
      rw [hb, ih hway.2 hrest]
      rfl
    · rw [hfails]
      rfl

end Stubsmith
