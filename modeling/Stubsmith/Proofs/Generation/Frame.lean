import Stubsmith.Proofs.Generation.CompleteOutput
import Stubsmith.Proofs.Generation.Ground

/-!
# What processing an input depends on

Apart from its services, an input depends on two things only: at which places on the way to its stub file
a file stands, and whether something stands in the place of the stub file. Where two file systems agree
in them, processing the input adds the same entries to both and comes to the same outcome. Only the text
that says why a stub file could not be made may differ, and only where double dots lead to the stub file.
-/
namespace Stubsmith.Generation

open Files (Path Place FileSystem FileError Location Anchor Entry)
open Files.FileSystem

variable {fs fs' : FileSystem} {a : Anchor} {ps : List String} {n : String} {w : Writer} {input : Path}
variable {services : List Service}

/-- The outcome without the text that says why a stub file could not be made. -/
def Outcome.blurred (o : Outcome) : Outcome :=
  if o.status = .createError then { o with error := none } else o

/-- Two file systems agree in what matters to the stub file at a path. -/
structure Interchangeable (fs fs' : FileSystem) (a : Anchor) (ps : List String) (n : String) : Prop where
  start : fs'.startOf a = fs.startOf a
  blocked : ∀ l ∈ trail (fs.startOf a) ps, fs'.blocked l = fs.blocked l
  held : spot fs a ps n ∉ trail (fs.startOf a) ps →
    (fs'.get? (spot fs a ps n)).isSome = (fs.get? (spot fs a ps n)).isSome

/-- The entries are folders on the way to a stub file, and the stub file. -/
def Footprint (fs : FileSystem) (a : Anchor) (ps : List String) (n : String)
    (add : Location → Option Entry) : Prop :=
  ∀ l e, add l = some e → e = .folder ∧ l ∈ trail (fs.startOf a) ps ∨
    (∃ bytes, e = .file bytes) ∧ l = spot fs a ps n ∧ l ∉ trail (fs.startOf a) ps

/-- Processing an input has added the same entries to both file systems, with the same outcome. -/
structure Parallel (fs fs' : FileSystem) (a : Anchor) (ps : List String) (n : String)
    (done done' : Done Outcome) : Prop where
  alike : done'.result.map Outcome.blurred = done.result.map Outcome.blurred
  exact : ".." ∉ ps → done'.result = done.result
  files : ∃ add, Footprint fs a ps n add ∧ (∀ l, done.fs.get? l = (add l).or (fs.get? l)) ∧
    ∀ l, done'.fs.get? l = (add l).or (fs'.get? l)

/-- Folders at some locations. -/
def foldersAt (made : List Location) (l : Location) : Option Entry := if l ∈ made then some .folder else none

lemma foldersAt_or (made : List Location) (l : Location) (x : Option Entry) :
    (foldersAt made l).or x = if l ∈ made then some .folder else x := by
  unfold foldersAt
  split_ifs
  · rfl
  · rfl

lemma footprint_foldersAt {made : List Location} (h : made ⊆ trail (fs.startOf a) ps) :
    Footprint fs a ps n (foldersAt made) := by
  intro l e he
  unfold foldersAt at he
  split_ifs at he with hl
  cases he
  exact Or.inl ⟨rfl, h hl⟩

namespace Interchangeable

variable (hi : Interchangeable fs fs' a ps n)
include hi

lemma spot : spot fs' a ps n = spot fs a ps n := by
  unfold Generation.spot
  rw [hi.start]

/-- The same folders are made on the way. -/
lemma paves : ∃ made ⊆ trail (fs.startOf a) ps,
    (fs'.pave (fs'.startOf a) ps).1 = (fs.pave (fs.startOf a) ps).1 ∧
      ((fs.pave (fs.startOf a) ps).1 = true → made = trail (fs.startOf a) ps) ∧
      (∀ l, (fs.pave (fs.startOf a) ps).2.get? l = (foldersAt made l).or (fs.get? l)) ∧
      ∀ l, (fs'.pave (fs'.startOf a) ps).2.get? l = (foldersAt made l).or (fs'.get? l) := by
  rw [hi.start]
  simp only [foldersAt_or]
  exact pave_agree hi.blocked

lemma ground : ground fs' a ps n = ground fs a ps n := by
  obtain ⟨made, -, hdone, hall, hmade, hmade'⟩ := hi.paves
  unfold Generation.ground
  rw [hdone, hi.start, hi.spot, hmade, ← hi.start, hmade', hi.start]
  by_cases hbar : (fs.pave (fs.startOf a) ps).1 = false ∨ ((fs.startOf a).along ps).lost ≠ 0
  · rw [if_pos hbar, if_pos hbar]
  · have hpave : (fs.pave (fs.startOf a) ps).1 = true := by simpa using (not_or.mp hbar).1
    have hsome : ((foldersAt made (Generation.spot fs a ps n)).or (fs'.get? (Generation.spot fs a ps n))).isSome =
        ((foldersAt made (Generation.spot fs a ps n)).or (fs.get? (Generation.spot fs a ps n))).isSome := by
      rw [hall hpave]
      simp only [foldersAt_or]
      split_ifs with hl
      · rfl
      · exact hi.held hl
    rw [hsome]

/-- Without double dots, the same folder is what cannot be made. -/
lemma obstacle (hw : fs.WellFormed) (hw' : fs'.WellFormed) (hdots : ".." ∉ ps)
    (hpave : (fs.pave (fs.startOf a) ps).1 = false) : fs'.obstacle a ps = fs.obstacle a ps := by
  obtain ⟨made, -, hdone, -⟩ := hi.paves
  unfold FileSystem.obstacle
  rw [hi.start]
  by_cases hlost : (fs.startOf a).lost = 0
  · rw [if_neg (not_not.mpr hlost), if_neg (not_not.mpr hlost)]
    have hpave' : (fs'.pave (fs.startOf a) ps).1 = false := by rwa [← hi.start, hdone]
    have hway := stopped_of_pave hw hdots hlost hpave
    have hway' := stopped_of_pave hw' hdots hlost hpave'
    rcases List.eq_nil_or_concat ps with rfl | ⟨ys, y, rfl⟩
    · cases hway
    · rw [List.concat_eq_append, List.dropLast_concat] at *
      have hagree : (fs'.pave (fs.startOf a) ys).1 = (fs.pave (fs.startOf a) ys).1 := by
        obtain ⟨_, -, hsame, -⟩ := @pave_agree fs fs' (fs.startOf a) ys fun l hl =>
          hi.blocked l (by rw [trail_append]; exact List.mem_append_left _ hl)
        exact hsame
      have hclear : ∀ {g : FileSystem}, g.way (fs.startOf a) (ys ++ [y]) = .stopped →
          (g.way (fs.startOf a) ys = .clear ↔ (g.pave (fs.startOf a) ys).1 = true) := by
        intro g hg
        rw [way_append] at hg
        constructor
        · intro hopen
          rw [pave_clear hopen]
        · intro hdone
          by_contra hopen
          rw [if_neg hopen] at hg
          rw [pave_stopped hg] at hdone
          cases hdone
      simp only [hclear hway, hclear hway', hagree]
  · rw [if_pos hlost, if_pos hlost]

end Interchangeable

lemma Parallel.of_eq {done done' : Done Outcome} (hresult : done'.result = done.result)
    (hfiles : ∃ add, Footprint fs a ps n add ∧ (∀ l, done.fs.get? l = (add l).or (fs.get? l)) ∧
      ∀ l, done'.fs.get? l = (add l).or (fs'.get? l)) : Parallel fs fs' a ps n done done' :=
  ⟨by rw [hresult], fun _ => hresult, hfiles⟩

/-- Nothing was made in either file system. -/
lemma Parallel.of_unchanged {done done' : Done Outcome} (hresult : done'.result = done.result)
    (hfs : done.fs = fs) (hfs' : done'.fs = fs') : Parallel fs fs' a ps n done done' := by
  refine .of_eq hresult ⟨fun _ => none, fun l e he => by (cases he), fun l => ?_, fun l => ?_⟩
  · rw [hfs, Option.none_or]
  · rw [hfs', Option.none_or]

/-- In both file systems a stub file could not be made, for a fault that may be shown differently. -/
lemma Parallel.of_faults {done done' : Done Outcome} {target : Path} {e e' : FileError}
    (hresult : done.result = .ok (concluded input target services .createError (some e.message)))
    (hresult' : done'.result = .ok (concluded input target services .createError (some e'.message)))
    (hsame : ".." ∉ ps → e' = e)
    (hfiles : ∃ add, Footprint fs a ps n add ∧ (∀ l, done.fs.get? l = (add l).or (fs.get? l)) ∧
      ∀ l, done'.fs.get? l = (add l).or (fs'.get? l)) : Parallel fs fs' a ps n done done' where
  alike := by
    rw [hresult, hresult']
    rfl
  exact := by
    intro hdots
    rw [hresult, hresult', hsame hdots]
  files := hfiles

section Step

variable (h : fs.LinkFree) (hw : fs.WellFormed) (h' : fs'.LinkFree) (hw' : fs'.WellFormed)
variable (hps : Fit (ps ++ [n])) (hn : n ≠ "..") (huntouching : w.Untouching)
variable (hi : Interchangeable fs fs' a ps n)
include h hw h' hw' hps hi

/-- A path that no file system takes. -/
lemma writeServices_parallel_of_error {e : FileError} (hq : admissible ⟨a, ps ++ [n]⟩ = .error e) :
    Parallel fs fs' a ps n (writeServices fs input ⟨a, ps ++ [n]⟩ w services)
      (writeServices fs' input ⟨a, ps ++ [n]⟩ w services) := by
  cases e with
  | onPath fault q =>
    obtain ⟨hfs, hresult⟩ := @writeServices_tooLong fs w input services _ q fault hq
    obtain ⟨hfs', hresult'⟩ := @writeServices_tooLong fs' w input services _ q fault hq
    exact .of_unchanged (hresult'.trans hresult.symm) hfs hfs'
  | nullCharacter =>
    cases hparent : admissible ⟨a, ps⟩ with
    | error e =>
      obtain ⟨hfs, hresult⟩ := @writeServices_nullParent fs a ps n w input services hq e hparent
      obtain ⟨hfs', hresult'⟩ := @writeServices_nullParent fs' a ps n w input services hq e hparent
      exact .of_unchanged (hresult'.trans hresult.symm) hfs hfs'
    | ok u =>
      obtain ⟨made, hsub, hdone, -, hmade, hmade'⟩ := hi.paves
      obtain ⟨hfs, hend, hfail⟩ := @writeServices_null fs a ps n w input services hq h hw hparent hps.left
      obtain ⟨hfs', hend', hfail'⟩ := @writeServices_null fs' a ps n w input services hq h' hw' hparent hps.left
      rw [← hfs] at hmade
      rw [← hfs'] at hmade'
      cases hpave : (fs.pave (fs.startOf a) ps).1 with
      | true =>
        rw [hpave] at hdone
        exact .of_eq ((hend' hdone).trans (hend hpave).symm) ⟨_, footprint_foldersAt hsub, hmade, hmade'⟩
      | false =>
        rw [hpave] at hdone
        obtain ⟨fault, q, hresult, hobstacle⟩ := hfail hpave
        obtain ⟨fault', q', hresult', hobstacle'⟩ := hfail' hdone
        refine .of_faults hresult hresult' (fun hdots => ?_) ⟨_, footprint_foldersAt hsub, hmade, hmade'⟩
        rw [hobstacle hdots, hobstacle' hdots, hi.obstacle hw hw' hdots hpave]

include hn huntouching

/-- Writing services depends only on what matters to the stub file. -/
theorem writeServices_parallel :
    Parallel fs fs' a ps n (writeServices fs input ⟨a, ps ++ [n]⟩ w services)
      (writeServices fs' input ⟨a, ps ++ [n]⟩ w services) := by
  cases hq : admissible ⟨a, ps ++ [n]⟩ with
  | error e => exact writeServices_parallel_of_error h hw h' hw' hps hi hq
  | ok u =>
    obtain ⟨made, hsub, hdone, hall, hmade, hmade'⟩ := hi.paves
    have hground' := hi.ground
    cases hground : ground fs a ps n with
    | barred =>
      rw [hground] at hground'
      obtain ⟨hfs, fault, q, hresult, hsetback⟩ :=
        @writeServices_barred fs a ps n w input services h hw hq hps hn hground
      obtain ⟨hfs', fault', q', hresult', hsetback'⟩ :=
        @writeServices_barred fs' a ps n w input services h' hw' hq hps hn hground'
      rw [← hfs] at hmade
      rw [← hfs'] at hmade'
      refine .of_faults hresult hresult' (fun hdots => ?_) ⟨_, footprint_foldersAt hsub, hmade, hmade'⟩
      rw [hsetback hdots, hsetback' hdots, setback, setback, hdone]
      split_ifs with hpave
      · exact hi.obstacle hw hw' hdots hpave
      · rfl
    | held =>
      rw [hground] at hground'
      obtain ⟨hfs, hresult⟩ := @writeServices_held fs a ps n w input services h hw hq hps hn hground
      obtain ⟨hfs', hresult'⟩ := @writeServices_held fs' a ps n w input services h' hw' hq hps hn hground'
      rw [← hfs] at hmade
      rw [← hfs'] at hmade'
      exact .of_eq (hresult'.trans hresult.symm) ⟨_, footprint_foldersAt hsub, hmade, hmade'⟩
    | vacant =>
      rw [hground] at hground'
      cases hfailure : (w.emitAll (baseName input) (w.fileName (baseName input)) [] services).failure with
      | some failure =>
        obtain ⟨hfs, hresult⟩ := writeServices_failed h hw hq hps hn huntouching hground hfailure
        obtain ⟨hfs', hresult'⟩ := writeServices_failed h' hw' hq hps hn huntouching hground' hfailure
        rw [← hfs] at hmade
        rw [← hfs'] at hmade'
        exact .of_eq (hresult'.trans hresult.symm) ⟨_, footprint_foldersAt hsub, hmade, hmade'⟩
      | none =>
        obtain ⟨hpave, -, hnone⟩ := ground_eq_vacant.mp hground
        obtain ⟨hfs, hresult⟩ := writeServices_finished h hw hq hps hn huntouching hground hfailure
        obtain ⟨hfs', hresult'⟩ := writeServices_finished h' hw' hq hps hn huntouching hground' hfailure
        rw [hi.start] at hresult'
        generalize (w.emitAll (baseName input) (w.fileName (baseName input)) [] services).appended = bytes
          at hfs hfs'
        refine .of_eq (hresult'.trans hresult.symm) ⟨fun l =>
          if l = spot fs a ps n then some (.file bytes) else foldersAt made l, ?_, fun l => ?_, fun l => ?_⟩
        · intro l e he
          dsimp only at he
          split_ifs at he with hl
          · cases he
            refine Or.inr ⟨⟨bytes, rfl⟩, hl, fun hmem => ?_⟩
            rw [← hall hpave, hl] at hmem
            rw [hmade, foldersAt_or, if_pos hmem] at hnone
            cases hnone
          · exact footprint_foldersAt hsub l e he
        · rw [hfs, get?_set (by simp [spot]), hmade]
          dsimp only
          split_ifs
          · rfl
          · rfl
        · rw [hfs', get?_set (by simp [spot]), hmade', hi.spot]
          dsimp only
          split_ifs
          · rfl
          · rfl

end Step

section Input

variable {root out : Path} (h : fs.LinkFree) (hw : fs.WellFormed)
variable (htarget : outputPath input root out w = .ok ⟨a, ps ++ [n]⟩)
variable (hps : Fit (ps ++ [n])) (hn : n ≠ "..") (huntouching : w.Untouching)
include h hw htarget hps hn huntouching

lemma generateFile_keeps : (generateFile fs root out input w).fs.LinkFree ∧
    (generateFile fs root out input w).fs.WellFormed := by
  unfold generateFile
  split
  · exact ⟨h, hw⟩
  · exact ⟨h, hw⟩
  · exact ⟨h, hw⟩
  · exact ⟨h, hw⟩
  · simp only [htarget]
    exact writeServices_keeps h hw hps hn huntouching

/-- Processing an input depends only on its services and on what matters to its stub file. -/
theorem generateFile_parallel (h' : fs'.LinkFree) (hw' : fs'.WellFormed)
    (hi : Interchangeable fs fs' a ps n) (hservices : servicesOf fs' input = servicesOf fs input) :
    Parallel fs fs' a ps n (generateFile fs root out input w) (generateFile fs' root out input w) := by
  unfold generateFile
  rw [hservices]
  rcases servicesOf fs input with ⟨result, log⟩
  cases result with
  | error e =>
    cases e with
    | parse e => exact .of_unchanged rfl rfl rfl
    | nullCharacter => exact .of_unchanged rfl rfl rfl
    | invalid issues => exact .of_unchanged rfl rfl rfl
  | ok services =>
    cases services with
    | nil => exact .of_unchanged rfl rfl rfl
    | cons s ss =>
      simp only [htarget]
      have hwrite := @writeServices_parallel fs fs' a ps n w input (s :: ss) h hw h' hw' hps hn huntouching hi
      exact ⟨hwrite.alike, hwrite.exact, hwrite.files⟩

/-- What is new is a folder on the way to the stub file, or the stub file. -/
lemma generateFile_new {l : Location} {e : Entry} (hnew : fs.get? l = none)
    (he : (generateFile fs root out input w).fs.get? l = some e) :
    e = .folder ∧ l ∈ trail (fs.startOf a) ps ∨
      (∃ bytes, e = .file bytes) ∧ l = spot fs a ps n ∧ l ∉ trail (fs.startOf a) ps := by
  have hself : Interchangeable fs fs a ps n := ⟨rfl, fun _ _ => rfl, fun _ => rfl⟩
  obtain ⟨add, hfoot, hfiles, -⟩ :=
    (generateFile_parallel h hw htarget hps hn huntouching h hw hself rfl).files
  rw [hfiles, hnew, Option.or_none] at he
  exact hfoot l e he

end Input

end Stubsmith.Generation
