import Stubsmith.Proofs.Data.Result
import Stubsmith.Proofs.Files.Paving

/-!
# Faults that are no answer

Whether something stands at a path can be told unless a name on the way or the path itself is too long.
A change at a path is refused for a null character exactly if the path has one. Both hold with links on
the way.
-/
namespace Stubsmith.Files.FileSystem

variable {fs : FileSystem} {p : Place} {q : Path} {a : Anchor} {xs : List String}

/-- The fault answers the question whether something is there, or it says that a name is too long. -/
def IsAnswer (fault : Fault) : Prop := fault.meansAbsent = true ∨ fault = .nameTooLong

lemma isAnswer_entryIn {name : String} {fault : Fault} (h : fs.entryIn p name = .error fault) :
    IsAnswer fault := by
  unfold entryIn at h
  split at h
  · cases h
    exact Or.inl rfl
  · split at h
    · split at h
      · cases h
        exact Or.inr rfl
      · cases h
    · cases h
      exact Or.inl rfl
    · cases h
      exact Or.inl rfl

lemma isAnswer_walk {follow : Place → List String → Except Fault Place} {fault : Fault}
    (hfollow : ∀ p names fault, follow p names = .error fault → IsAnswer fault)
    (h : fs.walk follow p xs = .error fault) : IsAnswer fault := by
  induction xs generalizing p with
  | nil => cases h
  | cons name rest ih =>
    rw [walk_cons] at h
    split at h
    · split at h
      · exact ih h
      · cases h
        exact Or.inl rfl
      · cases h
        exact Or.inl rfl
    · split at h
      · next hentry =>
        cases h
        exact isAnswer_entryIn hentry
      · cases h
        exact Or.inl rfl
      · exact hfollow _ _ _ h
      · exact ih h

lemma isAnswer_resolveNames {links : Nat} {fault : Fault} (h : fs.resolveNames links p xs = .error fault) :
    IsAnswer fault := by
  induction links generalizing p xs fault with
  | zero =>
    refine isAnswer_walk (fun p names fault hfollow => ?_) h
    cases hfollow
    exact Or.inl rfl
  | succ links ih => exact isAnswer_walk (fun p names fault hfollow => ih hfollow) h

lemma isAnswer_stat {fault : Fault} {r : Path} (h : fs.stat q = .error (.onPath fault r)) :
    r = q ∧ IsAnswer fault := by
  unfold stat locate at h
  rcases bind_eq_error.mp h with h | ⟨place, -, h⟩
  · rcases bind_eq_error.mp h with h | ⟨u, -, h⟩
    · unfold admissible at h
      split at h
      · cases h
      · split at h
        · cases h
          exact ⟨rfl, Or.inr rfl⟩
        · cases h
    · cases hr : fs.resolveNames linkLimit (fs.startOf q.anchor) q.parts with
      | ok place =>
        rw [hr] at h
        cases h
      | error fault' =>
        rw [hr] at h
        cases h
        exact ⟨rfl, isAnswer_resolveNames hr⟩
  · split at h
    · cases h
    · cases h
      exact ⟨rfl, Or.inl rfl⟩

/-- What stands at a path cannot be told exactly if something is too long. -/
lemma ask_eq_error {question : Entry → Bool} {e : FileError} : fs.ask q question = .error e ↔
    e = .onPath .nameTooLong q ∧ fs.stat q = .error (.onPath .nameTooLong q) := by
  unfold ask
  cases hstat : fs.stat q with
  | ok entry => simp
  | error err =>
    cases err with
    | nullCharacter => simp
    | onPath fault r =>
      obtain ⟨rfl, habsent | rfl⟩ := isAnswer_stat hstat
      · have hshort : fault ≠ .nameTooLong := by
          rintro rfl
          cases habsent
        simp [habsent, hshort]
      · simp [Fault.meansAbsent, eq_comm]

lemma exists_eq_error {e : FileError} : fs.exists? q = .error e ↔
    e = .onPath .nameTooLong q ∧ fs.stat q = .error (.onPath .nameTooLong q) := ask_eq_error

lemma admissible_eq_null : admissible q = .error .nullCharacter ↔ '\x00' ∈ q.text.toList := by
  unfold admissible
  by_cases hnull : '\x00' ∈ q.text.toList
  · simp [hnull]
  · by_cases hlong : q.text.utf8ByteSize ≥ pathLimit
    · simp [hnull, hlong]
    · simp [hnull, hlong]

/-- Nothing stands at a path with a null character. -/
lemma exists_of_null (hnull : '\x00' ∈ q.text.toList) : fs.exists? q = .ok false := by
  simp [exists?, ask, stat, locate, admissible_eq_null.mpr hnull, bind, Except.bind]

lemma vacancy_eq_null : fs.vacancy q = .error .nullCharacter ↔ '\x00' ∈ q.text.toList := by
  rw [← admissible_eq_null]
  constructor
  · intro h
    unfold vacancy locateLast at h
    rcases bind_eq_error.mp h with h | ⟨r, -, h⟩
    · rcases bind_eq_error.mp h with h | ⟨u, -, h⟩
      · exact h
      · split at h
        · cases h
        · rcases bind_eq_error.mp h with h | ⟨folder, -, h⟩
          · cases hr : fs.resolveNames linkLimit (fs.startOf q.anchor) q.parts.dropLast with
            | ok place =>
              rw [hr] at h
              cases h
            | error fault =>
              rw [hr] at h
              cases h
          · split at h <;> cases h
    · split at h
      · cases h
      · split at h <;> cases h
  · intro h
    simp [vacancy, locateLast, h, bind, Except.bind]

lemma makeFolder_eq_null : fs.makeFolder q = .error .nullCharacter ↔ '\x00' ∈ q.text.toList := by
  rw [← @vacancy_eq_null fs]
  unfold makeFolder
  cases fs.vacancy q with
  | error e => simp [bind, Except.bind]
  | ok loc => simp [bind, Except.bind, pure, Except.pure]

lemma createFile_eq_null : fs.createFile q = .error .nullCharacter ↔ '\x00' ∈ q.text.toList := by
  rw [← @vacancy_eq_null fs]
  unfold createFile
  cases fs.vacancy q with
  | error e => simp [bind, Except.bind]
  | ok loc => simp [bind, Except.bind, pure, Except.pure]

lemma null_of_ensureLast (h : fs.ensureLast q = .error .nullCharacter) : '\x00' ∈ q.text.toList := by
  unfold ensureLast at h
  split at h
  · cases h
  · cases h
  · next hmake => exact makeFolder_eq_null.mp hmake
  · next e hmissing hnull hmake =>
    unfold settle at h
    split at h
    · cases h
    · cases h
      exact absurd rfl hnull
    · next hask =>
      cases h
      unfold isFolder ask at hask
      split at hask
      · cases hask
      · split at hask <;> cases hask
      · cases hask

lemma null_of_ensureFirst {n : Nat} (h : (ensureFirst ⟨a, xs⟩ n fs).1 = .error .nullCharacter) :
    '\x00' ∈ (Path.text ⟨a, xs⟩).toList := by
  have hlast : ∀ (n : Nat) (fs : FileSystem), fs.ensureLast ⟨a, xs.take n⟩ = .error .nullCharacter →
      '\x00' ∈ (Path.text ⟨a, xs⟩).toList := by
    intro n fs h
    have hnull : '\x00' ∈ (Path.text ⟨a, xs.take n ++ xs.drop n⟩).toList := null_mem_append (null_of_ensureLast h)
    rwa [List.take_append_drop] at hnull
  have hnext : ∀ (n : Nat) (r : Except FileError Unit × FileSystem),
      (ensureNext ⟨a, xs.take n⟩ r).1 = .error .nullCharacter →
      r.1 = .error .nullCharacter ∨ '\x00' ∈ (Path.text ⟨a, xs⟩).toList := by
    rintro n ⟨result, made⟩ h
    cases result with
    | error e => exact Or.inl h
    | ok u =>
      unfold ensureNext at h
      dsimp only at h
      split at h
      · cases h
      · next he =>
        cases h
        exact Or.inr (hlast n made he)
  induction n with
  | zero =>
    rcases hnext 0 _ h with h | hnull
    · cases h
    · exact hnull
  | succ n ih =>
    rw [ensureFirst_succ] at h
    split at h
    · cases h
    · next he =>
      split at h
      · rcases hnext (n + 1) _ h with h | hnull
        · exact ih h
        · exact hnull
      · cases h
        exact hlast (n + 1) fs he

/-- A folder is refused for a null character exactly if its path has one. -/
lemma ensureFolder_eq_null : (fs.ensureFolder ⟨a, xs⟩).1 = .error .nullCharacter ↔
    '\x00' ∈ (Path.text ⟨a, xs⟩).toList := by
  refine ⟨null_of_ensureFirst, fun hnull => ?_⟩
  rw [ensureFolder_inadmissible (admissible_eq_null.mpr hnull)]

end Stubsmith.Files.FileSystem
