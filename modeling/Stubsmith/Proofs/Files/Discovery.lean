import Stubsmith.Files.Discovery
import Stubsmith.Proofs.Files.Extension

/-!
# What is discovered

Whatever a search finds is a file. A larger file system has the same file there.
-/
namespace Stubsmith.Files

namespace Discovered

/-- All files that a search has found have the property. -/
def All (P : Path → Prop) (d : Discovered) : Prop := ∀ files, d.result = .ok files → ∀ p ∈ files, P p

variable {P : Path → Prop}

lemma all_of_error {e : DiscoveryError} {log : List LogRecord} : All P ⟨.error e, log⟩ := by
  intro files hf
  cases hf

lemma All.andThen {a : Discovered} {b : Unit → Discovered} (ha : a.All P) (hb : (b ()).All P) :
    (a.andThen b).All P := by
  unfold Discovered.andThen
  cases hr : a.result with
  | error e => exact all_of_error
  | ok files =>
    intro all hall p hp
    dsimp only at hall
    cases hn : (b ()).result with
    | error e =>
      rw [hn] at hall
      cases hall
    | ok more =>
      rw [hn] at hall
      cases hall
      rcases List.mem_append.mp hp with hp | hp
      · exact ha files hr p hp
      · exact hb more hn p hp

end Discovered

namespace FileSystem

open Discovered (all_of_error)

variable {fs : FileSystem} {recursive : Bool}

lemma all_candidate {P : Path → Prop} {descend : Path → Discovered} {p : Path}
    (hp : fs.isFile p = .ok true → P p) (hd : (descend p).All P) :
    (fs.candidate descend recursive p).All P := by
  unfold candidate
  split
  · exact all_of_error
  · next hfile =>
    intro files hf q hq
    cases hf
    rw [List.mem_singleton.mp hq]
    exact hp hfile
  · split
    · exact all_of_error
    · split_ifs
      · exact hd
      · intro files hf q hq
        cases hf
        cases hq

lemma all_candidates {P : Path → Prop} {descend : Path → Discovered} {ps : List Path}
    (h : ∀ p ∈ ps, (fs.isFile p = .ok true → P p) ∧ (descend p).All P) :
    (fs.candidates descend recursive ps).All P := by
  induction ps with
  | nil =>
    intro files hf q hq
    cases hf
    cases hq
  | cons p ps ih =>
    rw [List.forall_mem_cons] at h
    exact (all_candidate h.1.1 h.1.2).andThen (ih h.2)

lemma all_filesIn (levels : Nat) (folder : Path) :
    (fs.filesIn recursive levels folder).All fun q => fs.isFile q = .ok true := by
  induction levels generalizing folder with
  | zero => exact all_of_error
  | succ levels ih =>
    unfold filesIn
    split
    · exact all_of_error
    · exact all_candidates fun p _ => ⟨id, ih p⟩

lemma all_discoverAs {P : Path → Prop} {root : Path} {label : String}
    {search : Unit → Discovered} (h : (search ()).All P) : (fs.discoverAs root label search).All P := by
  unfold discoverAs
  split
  · exact all_of_error
  · exact h

/-- A property of what is found in a folder: each entry may have it, and what has it below an entry has it. -/
lemma all_filesIn_of {P : Path → Path → Prop}
    (hchild : ∀ folder names x, fs.list folder = .ok names → x ∈ names →
      P folder (folder.child x) ∧ ∀ q, P (folder.child x) q → P folder q) (levels : Nat) (folder : Path) :
    (fs.filesIn recursive levels folder).All (P folder) := by
  induction levels generalizing folder with
  | zero => exact all_of_error
  | succ levels ih =>
    unfold filesIn
    split
    · exact all_of_error
    · next names hlist =>
      refine all_candidates fun q hq => ?_
      obtain ⟨x, hx, rfl⟩ := List.mem_map.mp hq
      obtain ⟨hentry, hbelow⟩ := hchild folder names x hlist hx
      exact ⟨fun _ => hentry, fun found hfound r hr => hbelow r (ih (folder.child x) found hfound r hr)⟩

lemma all_discover_of {P : Path → Prop} {root : Path} (hroot : P root)
    (hbelow : (fs.filesIn recursive pathLimit root).All P) : (fs.discover root recursive).All P := by
  unfold discover
  split
  · exact all_of_error
  · refine all_discoverAs fun files hf q hq => ?_
    cases hf
    rwa [List.mem_singleton.mp hq]
  · split
    · exact all_of_error
    · exact all_discoverAs hbelow
    · exact all_of_error

/-- The path begins with all that the other one is made of. -/
def Under (folder q : Path) : Prop := q.anchor = folder.anchor ∧ folder.parts <+: q.parts

/-- Every input is named from the root. -/
lemma under_discover (root : Path) : (fs.discover root recursive).All (Under root) := by
  have hentry : ∀ (folder : Path) (x : String), Under folder (folder.child x) :=
    fun folder x => ⟨rfl, List.prefix_append _ _⟩
  refine all_discover_of ⟨rfl, List.prefix_refl _⟩ (all_filesIn_of (fun folder names x _ _ => ?_) _ root)
  exact ⟨hentry folder x, fun q hq => ⟨hq.1, (hentry folder x).2.trans hq.2⟩⟩

/-- Every input under a root is a file. -/
theorem all_discover (root : Path) : (fs.discover root recursive).All fun q => fs.isFile q = .ok true := by
  unfold discover
  split
  · exact all_of_error
  · next hroot =>
    refine all_discoverAs fun files hf q hq => ?_
    cases hf
    rw [List.mem_singleton.mp hq]
    exact hroot
  · split
    · exact all_of_error
    · exact all_discoverAs (all_filesIn _ root)
    · exact all_of_error

end FileSystem

end Stubsmith.Files
