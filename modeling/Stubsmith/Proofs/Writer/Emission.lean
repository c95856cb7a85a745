import Mathlib.Tactic.Common
import Stubsmith.Writer.Registry

/-!
# What writers emit

A writer that leaves the files alone only appends bytes or fails. Writing several services is writing
them one after the other, each to what the file holds by then; all of it succeeds or the first failure
is the failure of the whole. The factories of a registry are those that were put into it.
-/
namespace Stubsmith

open Text (Bytes)

namespace Writer

/-- The writer leaves the files alone. -/
def Untouching (w : Writer) : Prop :=
  ∀ s base fileName held, (w.emit s base fileName held).removesFile = false

/-- The writer takes the services in order, none of them fails, and to a file that holds `held` it adds
`bytes` in all. -/
inductive Emits (w : Writer) (base : String) : (held : Bytes) → List Service → (bytes : Bytes) → Prop
  | nil (held : Bytes) : Emits w base held [] []
  | cons {held bytes : Bytes} {s : Service} {ss : List Service} :
      (w.emit s base (w.fileName base) held).failure = none →
      Emits w base (held ++ (w.emit s base (w.fileName base) held).appended) ss bytes →
      Emits w base held (s :: ss) ((w.emit s base (w.fileName base) held).appended ++ bytes)

variable {w : Writer} {base : String} {held bytes : Bytes} {ss : List Service}

lemma Untouching.emitAll {fileName : String} (h : w.Untouching) :
    (w.emitAll base fileName held ss).removesFile = false := by
  induction ss generalizing held with
  | nil => rfl
  | cons s ss ih =>
    rw [Writer.emitAll]
    split
    · exact h s base fileName held
    · exact Bool.or_eq_false_iff.mpr ⟨h s base fileName held, ih⟩

/-- Writing all services succeeds exactly if none of them fails, and appends what each of them does. -/
theorem emits_iff : w.Emits base held ss bytes ↔
    (w.emitAll base (w.fileName base) held ss).failure = none ∧
      (w.emitAll base (w.fileName base) held ss).appended = bytes := by
  induction ss generalizing held bytes with
  | nil =>
    constructor
    · rintro ⟨⟩
      exact ⟨rfl, rfl⟩
    · rintro ⟨-, rfl⟩
      exact .nil held
  | cons s ss ih =>
    rw [Writer.emitAll]
    cases hf : (w.emit s base (w.fileName base) held).failure with
    | some failure =>
      constructor
      · rintro (_ | ⟨hnone, -⟩)
        rw [hf] at hnone
        cases hnone
      · rintro ⟨hnone, -⟩
        rw [hf] at hnone
        cases hnone
    | none =>
      constructor
      · rintro (_ | ⟨-, hrest⟩)
        obtain ⟨hnone, happ⟩ := ih.mp hrest
        exact ⟨hnone, congrArg _ happ⟩
      · rintro ⟨hnone, rfl⟩
        exact .cons hf (ih.mpr ⟨hnone, rfl⟩)

end Writer

lemma Python.writer_untouching : Python.writer.Untouching := by
  intro s base fileName held
  simp only [Python.writer, Python.write]
  split
  · rfl
  · split <;> rfl

lemma Recorder.writer_untouching (r : Recorder) : r.writer.Untouching := by
  intro s base fileName held
  simp only [Recorder.writer]
  split <;> rfl

/-- The factory leaves the files alone, and so do the writers that it makes. -/
def Factory.Untouching (f : Factory) : Prop :=
  ∀ fs, (f.make fs).2 = fs ∧ ∀ w, (f.make fs).1 = .ok w → w.Untouching

lemma Factory.python_untouching : Factory.python.Untouching := by
  refine fun fs => ⟨rfl, fun w hw => ?_⟩
  cases hw
  exact Python.writer_untouching

namespace Registry

variable {r r' : Registry} {P : Factory → Prop}

/-- Every factory of the registry has the property. -/
def All (P : Factory → Prop) (r : Registry) : Prop := ∀ e ∈ r.entries, P e.2

lemma all_put {name : String} {f : Factory} {entries : List (String × Factory)} (hf : P f)
    (h : ∀ e ∈ entries, P e.2) : ∀ e ∈ put name f entries, P e.2 := by
  induction entries with
  | nil => simpa [put] using hf
  | cons e es ih =>
    rw [List.forall_mem_cons] at h
    rw [put]
    split_ifs
    · exact List.forall_mem_cons.mpr ⟨hf, h.2⟩
    · exact List.forall_mem_cons.mpr ⟨h.1, ih h.2⟩

lemma All.register {f : Factory} {name : Option String} {log : List LogRecord} (h : r.All P) (hf : P f)
    (hr : r.register f name = .ok (r', log)) : r'.All P := by
  unfold Registry.register at hr
  dsimp only at hr
  generalize (if name.getD "" = "" then f.name else name.getD "") = key at hr
  by_cases hkey : key = ""
  · simp [hkey] at hr
  · rw [if_neg hkey] at hr
    cases hr
    exact all_put hf h

lemma All.loadEach {plugins : List Plugin} (h : r.All P)
    (hp : ∀ p ∈ plugins, ∀ f, p.load = .ok f → P f) : (r.loadEach plugins).registry.All P := by
  induction plugins generalizing r with
  | nil => exact h
  | cons p ps ih =>
    rw [List.forall_mem_cons] at hp
    rw [Registry.loadEach]
    split
    · exact ih h hp.2
    · next f hf =>
      dsimp only
      generalize (if f.name = "" then p.name else f.name) = name
      split_ifs
      · exact ih h hp.2
      · split
        · exact h
        · next hr => exact ih (h.register (hp.1 f hf) hr) hp.2

/-- The factories of the default registry are the bundled one and those of the plugins. -/
lemma all_default {plugins : List Plugin} (hpython : P .python)
    (hp : ∀ p ∈ plugins, ∀ f, p.load = .ok f → P f) : (default plugins).registry.All P := by
  refine All.loadEach ?_ fun p hmem => hp p ?_
  · intro e he
    rw [List.mem_singleton.mp he]
    exact hpython
  · exact (List.mem_filter.mp (List.mem_mergeSort.mp hmem)).1

lemma All.select {name : Option (List Text.CodePoint)} {f : Factory} {log : List LogRecord} (h : r.All P)
    (hs : r.select name = (some f, log)) : P f := by
  unfold Registry.select at hs
  dsimp only at hs
  split at hs
  · split at hs
    · next g hg =>
      cases hs
      obtain ⟨given, -, hget⟩ := Option.bind_eq_some_iff.mp hg
      obtain ⟨e, he, rfl⟩ := Option.map_eq_some_iff.mp hget
      exact h e (List.mem_of_find?_eq_some he)
    · cases hs
  · split at hs
    · cases hs
    · next first _ others hr =>
      cases hs
      exact h (first, f) (by simp [hr])

end Registry

end Stubsmith
