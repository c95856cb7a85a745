import Stubsmith.Generation.Generate
import Stubsmith.Proofs.Files.Extension
import Stubsmith.Proofs.Writer.Emission

/-!
# What processing one input file does

Processing an input file makes folders in vacant places and, at most, one file in a vacant place. The
file stays if the writer comes to its end, with all that the writer has appended, and is removed again
if the writer fails. Nothing else changes.
-/
namespace Stubsmith.Generation

open Files (Path FileSystem FileError Location)
open Text (Bytes)

variable {fs fs' : FileSystem} {root out input target : Path} {w : Writer} {services : List Service}
variable {loc : Location}

/-- A stub file is opened in a vacant place to which its path leads. -/
lemma openOutput_eq_some (h : openOutput fs target = (.ok (some loc), fs')) :
    ∃ made, fs.AddsFolders made ∧ made.vacancy target = .ok loc ∧ fs' = made.set loc (.file []) := by
  have hfolder := fs.addsFolders_ensureFolder target.parent
  unfold openOutput at h
  split at h
  · cases h
  · next made he =>
    rw [he] at hfolder
    split at h
    · next hc =>
      cases h
      obtain ⟨hv, rfl⟩ := FileSystem.createFile_eq_ok hc
      exact ⟨made, hfolder, hv, rfl⟩
    · cases h
    · cases h

/-- If no stub file is opened, only folders are new. -/
lemma addsFolders_openOutput {r : Except FileError (Option Location)} (h : openOutput fs target = (r, fs'))
    (hr : ∀ loc, r ≠ .ok (some loc)) : fs.AddsFolders fs' := by
  have hfolder := fs.addsFolders_ensureFolder target.parent
  unfold openOutput at h
  split at h
  · next he =>
    cases h
    rwa [he] at hfolder
  · next he =>
    rw [he] at hfolder
    split at h
    · cases h
      exact absurd rfl (hr _)
    · cases h
      exact hfolder
    · cases h
      exact hfolder

section Fill

variable {made : FileSystem} {bytes : Bytes}

/-- A stub file that is finished holds all that the writer has appended. -/
lemma fill_finished (hv : made.vacancy target = .ok loc) (hw : w.Untouching)
    (he : w.Emits (baseName input) [] services bytes) :
    (fill (made.set loc (.file [])) input target loc w services).fs = made.set loc (.file bytes) ∧
      ∀ o, (fill (made.set loc (.file [])) input target loc w services).result = .ok o →
        o.input = input ∧ o.status = .generated := by
  obtain ⟨hfailure, happended⟩ := Writer.emits_iff.mp he
  have hloc := FileSystem.ne_root_of_vacant (FileSystem.get?_vacancy hv)
  unfold fill
  simp only [hw.emitAll, hfailure, happended, Bool.false_eq_true, if_false,
    FileSystem.append_set hloc, List.nil_append]
  cases (made.set loc (.file bytes)).realPath target with
  | error e => exact ⟨rfl, fun o ho => by cases ho⟩
  | ok real =>
    refine ⟨rfl, fun o ho => ?_⟩
    cases ho
    exact ⟨rfl, rfl⟩

/-- A stub file that the writer could not finish is gone again. -/
lemma fill_failed (hv : made.vacancy target = .ok loc) (hw : w.Untouching)
    (he : ¬ ∃ bytes, w.Emits (baseName input) [] services bytes) :
    (fill (made.set loc (.file [])) input target loc w services).fs = made ∧
      ∃ o, (fill (made.set loc (.file [])) input target loc w services).result = .ok o ∧
        o.input = input ∧ o.status = .writeError := by
  have hvacant := FileSystem.get?_vacancy hv
  have hloc := FileSystem.ne_root_of_vacant hvacant
  cases hfailure : (w.emitAll (baseName input) (w.fileName (baseName input)) [] services).failure with
  | none => exact absurd ⟨_, Writer.emits_iff.mpr ⟨hfailure, rfl⟩⟩ he
  | some failure =>
    generalize happended : (w.emitAll (baseName input) (w.fileName (baseName input)) [] services).appended
      = appended
    have hunlink : (made.set loc (.file appended)).unlink target = .ok made := by
      rw [FileSystem.unlink_of_vacancy hv (FileSystem.extends_set hvacant _)
        (by rw [FileSystem.get?_set hloc, if_pos rfl]), FileSystem.erase_set hvacant]
    unfold fill
    simp only [hw.emitAll, hfailure, happended, Bool.false_eq_true, if_false,
      FileSystem.append_set hloc, List.nil_append, discard, hunlink]
    exact ⟨trivial, _, rfl, rfl, rfl⟩

end Fill

/-- Processing the input has made no file; its outcome, if there is one, is not that of a generated
stub. -/
structure Idle (fs : FileSystem) (input : Path) (done : Done Outcome) : Prop where
  adds : fs.AddsFolders done.fs
  outcome : ∀ o, done.result = .ok o → o.input = input ∧ o.status ≠ .generated

/-- Processing the input has made its stub file at a location, with all that the writer emits for the
services of the input. -/
structure Made (fs : FileSystem) (root out input : Path) (w : Writer) (done : Done Outcome)
    (loc : Location) (bytes : Bytes) : Prop where
  stub : ∃ target services made, outputPath input root out w = .ok target ∧
    (servicesOf fs input).1 = .ok services ∧ w.Emits (baseName input) [] services bytes ∧
    fs.AddsFolders made ∧ made.vacancy target = .ok loc ∧ done.fs = made.set loc (.file bytes)
  outcome : ∀ o, done.result = .ok o → o.input = input ∧ o.status = .generated

lemma Idle.of_error {e : Abort} {done : Done Outcome} (hfs : fs.AddsFolders done.fs)
    (hr : done.result = .error e) : Idle fs input done where
  adds := hfs
  outcome := by
    intro o ho
    rw [hr] at ho
    cases ho

lemma Idle.of_ok {o : Outcome} {done : Done Outcome} (hfs : fs.AddsFolders done.fs)
    (hr : done.result = .ok o) (hi : o.input = input) (hs : o.status ≠ .generated) :
    Idle fs input done where
  adds := hfs
  outcome := by
    intro o' ho
    rw [hr] at ho
    cases ho
    exact ⟨hi, hs⟩

/-- Writing services makes a complete stub file or none. -/
lemma writeServices_cases (hw : w.Untouching) (fs : FileSystem) (input target : Path)
    (services : List Service) :
    Idle fs input (writeServices fs input target w services) ∨
      ∃ loc bytes made, w.Emits (baseName input) [] services bytes ∧ fs.AddsFolders made ∧
        made.vacancy target = .ok loc ∧
        (writeServices fs input target w services).fs = made.set loc (.file bytes) ∧
        ∀ o, (writeServices fs input target w services).result = .ok o →
          o.input = input ∧ o.status = .generated := by
  unfold writeServices
  dsimp only
  cases fs.exists? target with
  | error e => exact Or.inl (.of_error (.refl fs) rfl)
  | ok found =>
    cases found with
    | true => exact Or.inl (.of_ok (.refl fs) rfl rfl (by simp))
    | false =>
      dsimp only
      split
      · next ho => exact Or.inl (.of_error (addsFolders_openOutput ho (by simp)) rfl)
      · next ho => exact Or.inl (.of_ok (addsFolders_openOutput ho (by simp)) rfl rfl (by simp))
      · next ho => exact Or.inl (.of_ok (addsFolders_openOutput ho (by simp)) rfl rfl (by simp))
      · next loc fs' ho =>
        obtain ⟨made, hadds, hv, rfl⟩ := openOutput_eq_some ho
        by_cases he : ∃ bytes, w.Emits (baseName input) [] services bytes
        · obtain ⟨bytes, he⟩ := he
          obtain ⟨hfs, hresult⟩ := @fill_finished input target w services loc made bytes hv hw he
          exact Or.inr ⟨loc, bytes, made, he, hadds, hv, hfs, hresult⟩
        · obtain ⟨hfs, o, hresult, hi, hs⟩ := @fill_failed input target w services loc made hv hw he
          refine Or.inl (.of_ok ?_ hresult hi (by simp [hs]))
          rw [hfs]
          exact hadds

/-- Processing an input file makes its stub file, complete, or no file at all. -/
theorem generateFile_cases (hw : w.Untouching) (fs : FileSystem) (root out input : Path) :
    Idle fs input (generateFile fs root out input w) ∨
      ∃ loc bytes, Made fs root out input w (generateFile fs root out input w) loc bytes := by
  unfold generateFile
  split
  · exact Or.inl (.of_error (.refl fs) rfl)
  · exact Or.inl (.of_error (.refl fs) rfl)
  · exact Or.inl (.of_ok (.refl fs) rfl rfl (by simp))
  · exact Or.inl (.of_ok (.refl fs) rfl rfl (by simp))
  · next services log _ hservices =>
    split
    · exact Or.inl (.of_error (.refl fs) rfl)
    · next target ht =>
      rcases writeServices_cases hw fs input target services with
        hidle | ⟨loc, bytes, made, he, hadds, hv, hfs, hresult⟩
      · exact Or.inl ⟨hidle.adds, hidle.outcome⟩
      · refine Or.inr ⟨loc, bytes, ⟨target, services, made, ht, ?_, he, hadds, hv, hfs⟩, hresult⟩
        rw [hservices]

/-- The services of a file are those in its bytes. -/
lemma servicesOf_of_stat {bytes : Bytes} (hstat : fs.stat input = .ok (.file bytes)) : (servicesOf fs input).1 =
    match parseBytes input.text bytes with
    | .error e => .error (.parse e)
    | .ok tree => (Service.extract tree).1.mapError .invalid := by
  unfold servicesOf parseFile
  rw [FileSystem.readFile_of_file hstat]
  dsimp only
  cases parseBytes input.text bytes with
  | error e => rfl
  | ok tree => rfl

/-- If a file has services, all that is left is to write them. -/
lemma generateFile_of_services {s : Service} {ss : List Service}
    (hservices : (servicesOf fs input).1 = .ok (s :: ss)) (htarget : outputPath input root out w = .ok target) :
    (generateFile fs root out input w).fs = (writeServices fs input target w (s :: ss)).fs ∧
      (generateFile fs root out input w).result = (writeServices fs input target w (s :: ss)).result := by
  unfold generateFile
  generalize servicesOf fs input = served at hservices ⊢
  obtain ⟨result, log⟩ := served
  cases hservices
  simp only [htarget, and_self]

/-- Of an input that has been read, the writing of its services needs the base name only. -/
lemma writeServices_of_baseName {other : Path} (h : baseName input = baseName other) :
    (writeServices fs input target w services).fs = (writeServices fs other target w services).fs ∧
      (writeServices fs input target w services).result.map Outcome.status =
        (writeServices fs other target w services).result.map Outcome.status := by
  unfold writeServices
  split
  · exact ⟨rfl, rfl⟩
  · exact ⟨rfl, rfl⟩
  · split
    · exact ⟨rfl, rfl⟩
    · exact ⟨rfl, rfl⟩
    · exact ⟨rfl, rfl⟩
    · unfold fill
      rw [h]
      dsimp only
      split
      · exact ⟨rfl, rfl⟩
      · split
        · exact ⟨rfl, rfl⟩
        · exact ⟨rfl, rfl⟩

/-- Without a log file, the first input is processed and then the others. -/
lemma generateEach_cons (fs : FileSystem) (root out input : Path) (inputs : List Path) :
    generateEach none root out w fs (input :: inputs) =
      let first := generateFile fs root out input w
      match first.result with
      | .error e => { result := .error e, fs := first.fs, log := first.log, calls := first.calls }
      | .ok o =>
        let others := generateEach none root out w first.fs inputs
        { result := others.result.map (o :: ·), fs := others.fs, log := first.log ++ others.log
          calls := first.calls ++ others.calls } := by rfl

/-- The files after an aborted step are the files after the run. -/
lemma generateEach_of_error {e : Abort}
    (h : (generateFile fs root out input w).result = .error e) (inputs : List Path) :
    (generateEach none root out w fs (input :: inputs)).fs = (generateFile fs root out input w).fs ∧
      (generateEach none root out w fs (input :: inputs)).result = .error e := by
  rw [generateEach_cons]
  simp only [h, and_self]

lemma generateEach_of_ok {o : Outcome}
    (h : (generateFile fs root out input w).result = .ok o) (inputs : List Path) :
    (generateEach none root out w fs (input :: inputs)).fs =
        (generateEach none root out w (generateFile fs root out input w).fs inputs).fs ∧
      (generateEach none root out w fs (input :: inputs)).result =
        (generateEach none root out w (generateFile fs root out input w).fs inputs).result.map (o :: ·) := by
  rw [generateEach_cons]
  simp only [h, and_self]

/-- A run over a single input is the processing of it. -/
lemma generateEach_singleton (fs : FileSystem) (root out input : Path) (w : Writer) :
    (generateEach none root out w fs [input]).fs = (generateFile fs root out input w).fs ∧
      (generateEach none root out w fs [input]).result = (generateFile fs root out input w).result.map fun o => [o] := by
  cases h : (generateFile fs root out input w).result with
  | error e => exact generateEach_of_error h []
  | ok o => exact generateEach_of_ok h []

end Stubsmith.Generation
