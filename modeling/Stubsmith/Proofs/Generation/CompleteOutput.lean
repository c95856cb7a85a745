import Stubsmith.Proofs.Data.Result
import Stubsmith.Proofs.Files.Discovery
import Stubsmith.Proofs.Generation.NoClobber

/-!
# Only complete stub files appear

When a run comes to its end, every file that is new is the stub file of one of the inputs, and it holds
all that the writer emits for the services of that input. An input at which the writer gives up leaves
no file.
-/
namespace Stubsmith.Generation

open Files (Path FileSystem Location)
open Text (Bytes)

variable {fs fs' : FileSystem} {root out input : Path} {w : Writer} {inputs : List Path}
variable {outcomes : List Outcome} {loc : Location} {bytes : Bytes}

/-- The services of a file are the same in a larger file system. -/
lemma servicesOf_of_extends (h : fs.Extends fs') (hf : fs.isFile input = .ok true) :
    servicesOf fs' input = servicesOf fs input := by
  obtain ⟨held, hstat⟩ := FileSystem.isFile_eq_true.mp hf
  have hread := FileSystem.readFile_of_file hstat
  unfold servicesOf parseFile
  rw [hread, h.readFile hread]

/-- A tree that is read from bytes is parsed from the text in them. -/
lemma parse_of_parseBytes {source : String} {tree : Proto.Node} (h : parseBytes source bytes = .ok tree) :
    ∃ text, sourceText bytes = .ok text ∧ Proto.parse text = .ok tree := by
  unfold parseBytes at h
  cases htext : sourceText bytes with
  | error fault => simp [htext] at h
  | ok text =>
    simp only [htext] at h
    exact ⟨text, rfl, mapError_eq_ok.mp h⟩

/-- The file at a location is the stub file of an input, complete, and a path leads there. -/
def IsStub (fs : FileSystem) (root out : Path) (w : Writer) (o : Outcome) (final : FileSystem)
    (loc : Location) (bytes : Bytes) : Prop :=
  o.status = .generated ∧ ∃ target services, outputPath o.input root out w = .ok target ∧
    final.Denotes target loc ∧ (servicesOf fs o.input).1 = .ok services ∧
    w.Emits (baseName o.input) [] services bytes

/-- A stub stays one while more files are made. -/
lemma IsStub.of_extends {o : Outcome} {final final' : FileSystem}
    (h : IsStub fs root out w o final loc bytes) (he : final.Extends final') :
    IsStub fs root out w o final' loc bytes := by
  obtain ⟨hstatus, target, services, htarget, hdenotes, hrest⟩ := h
  exact ⟨hstatus, target, services, htarget, hdenotes.of_extends he, hrest⟩

/-- A stub is one from the outset if its input has been there all along. -/
lemma IsStub.of_input {o : Outcome} {final : FileSystem} (h : IsStub fs' root out w o final loc bytes)
    (he : fs.Extends fs') (hf : fs.isFile o.input = .ok true) :
    IsStub fs root out w o final loc bytes := by
  obtain ⟨hstatus, target, services, htarget, hdenotes, hservices, hemits⟩ := h
  rw [servicesOf_of_extends he hf] at hservices
  exact ⟨hstatus, target, services, htarget, hdenotes, hservices, hemits⟩

/-- A file that is new after one step is the stub file of its input. -/
lemma isStub_of_generateFile {o : Outcome} (hw : w.Untouching)
    (hr : (generateFile fs root out input w).result = .ok o)
    (hnew : (generateFile fs root out input w).fs.get? loc = some (.file bytes))
    (hold : ∀ held, fs.get? loc ≠ some (.file held)) :
    o.input = input ∧ IsStub fs root out w o (generateFile fs root out input w).fs loc bytes := by
  rcases generateFile_cases hw fs root out input with hidle | ⟨loc', bytes', hmade⟩
  · rcases hidle.adds.folders loc _ hnew with hfile | hfolder
    · exact absurd hfile (hold bytes)
    · cases hfolder
  · obtain ⟨target, services, made, htarget, hservices, hemits, hadds, hv, hfs⟩ := hmade.stub
    obtain ⟨rfl, hstatus⟩ := hmade.outcome o hr
    have hvacant := FileSystem.get?_vacancy hv
    rw [hfs, FileSystem.get?_set (FileSystem.ne_root_of_vacant hvacant)] at hnew
    split_ifs at hnew with hloc
    · cases hnew
      subst hloc
      refine ⟨rfl, hstatus, target, services, htarget, ?_, hservices, hemits⟩
      rw [hfs]
      exact (FileSystem.Denotes.of_vacancy hv).of_extends (FileSystem.extends_set hvacant _)
    · rcases hadds.folders loc _ hnew with hfile | hfolder
      · exact absurd hfile (hold bytes)
      · cases hfolder

/-- A file that is new after a run is the stub file of one of the inputs, which are all files. -/
lemma isStub_of_generateEach (hw : w.Untouching)
    (hr : (generateEach none root out w fs inputs).result = .ok outcomes)
    (hfiles : ∀ p ∈ inputs, fs.isFile p = .ok true)
    (hnew : (generateEach none root out w fs inputs).fs.get? loc = some (.file bytes))
    (hold : ∀ held, fs.get? loc ≠ some (.file held)) :
    ∃ o ∈ outcomes, o.input ∈ inputs ∧
      IsStub fs root out w o (generateEach none root out w fs inputs).fs loc bytes := by
  induction inputs generalizing fs outcomes with
  | nil => exact absurd hnew (hold bytes)
  | cons input inputs ih =>
    rw [List.forall_mem_cons] at hfiles
    cases hfirst : (generateFile fs root out input w).result with
    | error e =>
      rw [(generateEach_of_error hfirst inputs).2] at hr
      cases hr
    | ok o =>
      obtain ⟨hfs, hresult⟩ := generateEach_of_ok hfirst inputs
      have hfront := extends_generateFile hw fs root out input
      have hback := extends_generateEach hw (generateFile fs root out input w).fs root out inputs
      obtain ⟨os, hos, rfl⟩ := exists_of_map_eq_ok (hresult ▸ hr)
      rw [hfs] at hnew ⊢
      by_cases hnow : ∃ held, (generateFile fs root out input w).fs.get? loc = some (.file held)
      · obtain ⟨held, hheld⟩ := hnow
        have hkept := hback.keeps loc _ hheld
        rw [hnew] at hkept
        cases hkept
        obtain ⟨hinput, hstub⟩ := isStub_of_generateFile hw hfirst hheld hold
        exact ⟨o, by simp, by simp [hinput], hstub.of_extends hback⟩
      · have hfiles' : ∀ p ∈ inputs, (generateFile fs root out input w).fs.isFile p = .ok true :=
          fun p hp => hfront.isFile (hfiles.2 p hp)
        obtain ⟨o', ho', hinput, hstub⟩ := ih hos hfiles' hnew (fun held hheld => hnow ⟨held, hheld⟩)
        exact ⟨o', by simp [ho'], by simp [hinput], hstub.of_input hfront (hfiles.2 o'.input hinput)⟩

/-- The writer is given a new file for the stub of the input: its services are known, nothing stands at
its path, and a file was opened at the location. -/
structure Attempted (fs : FileSystem) (root out input : Path) (w : Writer) (services : List Service)
    (loc : Location) : Prop where
  services : (servicesOf fs input).1 = .ok services
  opened : ∃ target fs', outputPath input root out w = .ok target ∧ fs.exists? target = .ok false ∧
    openOutput fs target = (.ok (some loc), fs')

/-- Where the writer gives up, the outcome says so and the file is gone again. -/
lemma Attempted.failed {services : List Service} (h : Attempted fs root out input w services loc)
    (hw : w.Untouching) (he : ¬ ∃ bytes, w.Emits (baseName input) [] services bytes) :
    (generateFile fs root out input w).fs.get? loc = none ∧
      ∃ o, (generateFile fs root out input w).result = .ok o ∧ o.input = input ∧
        o.status = .writeError := by
  obtain ⟨target, fs', htarget, hexists, hopened⟩ := h.opened
  obtain ⟨made, hadds, hv, rfl⟩ := openOutput_eq_some hopened
  obtain ⟨hfs, o, hresult, hinput, hstatus⟩ := fill_failed hv hw he
  cases services with
  | nil => exact absurd ⟨[], .nil []⟩ he
  | cons s ss =>
    have hservices : servicesOf fs input = (.ok (s :: ss), (servicesOf fs input).2) := by
      rw [← h.services]
    have hwrite : writeServices fs input target w (s :: ss) =
        fill (made.set loc (.file [])) input target loc w (s :: ss) := by
      unfold writeServices
      simp only [hexists, hopened]
    unfold generateFile
    rw [hservices]
    simp only [htarget, hwrite]
    refine ⟨?_, o, hresult, hinput, hstatus⟩
    rw [hfs]
    exact FileSystem.get?_vacancy hv

/-- The files once some inputs have been processed. -/
def filesAfter (fs : FileSystem) (root out : Path) (w : Writer) (inputs : List Path) : FileSystem :=
  (generateEach none root out w fs inputs).fs

lemma filesAfter_cons {o : Outcome} (h : (generateFile fs root out input w).result = .ok o)
    (inputs : List Path) : filesAfter fs root out w (input :: inputs) =
      filesAfter (generateFile fs root out input w).fs root out w inputs := (generateEach_of_ok h inputs).1

/-- A run that has come to its end has processed each input after those before it. -/
lemma generateEach_split {before after : List Path}
    (h : (generateEach none root out w fs (before ++ input :: after)).result = .ok outcomes) :
    ∃ o, outcomes[before.length]? = some o ∧
      (generateFile (filesAfter fs root out w before) root out input w).result = .ok o ∧
      filesAfter fs root out w (before ++ [input]) =
        (generateFile (filesAfter fs root out w before) root out input w).fs := by
  induction before generalizing fs outcomes with
  | nil =>
    rw [List.nil_append] at h
    cases hfirst : (generateFile fs root out input w).result with
    | error e =>
      rw [(generateEach_of_error hfirst after).2] at h
      cases h
    | ok o =>
      rw [(generateEach_of_ok hfirst after).2] at h
      obtain ⟨os, -, rfl⟩ := exists_of_map_eq_ok h
      exact ⟨o, rfl, hfirst, filesAfter_cons hfirst []⟩
  | cons p before ih =>
    rw [List.cons_append] at h
    cases hfirst : (generateFile fs root out p w).result with
    | error e =>
      rw [(generateEach_of_error hfirst _).2] at h
      cases h
    | ok o =>
      rw [(generateEach_of_ok hfirst _).2] at h
      obtain ⟨os, hos, rfl⟩ := exists_of_map_eq_ok h
      obtain ⟨o', ho', hresult, hfiles⟩ := ih hos
      rw [List.cons_append, filesAfter_cons hfirst, filesAfter_cons hfirst]
      exact ⟨o', ho', hresult, hfiles⟩

lemma generate_eq_ok {recursive : Bool} {report : Report}
    (h : (generate none fs root out recursive w).result = .ok report) :
    ∃ inputs, (fs.discover root recursive).result = .ok inputs ∧
      (generateEach none root out w fs inputs).result = .ok report.outcomes ∧
      (generate none fs root out recursive w).fs = filesAfter fs root out w inputs := by
  unfold generate at h ⊢
  simp only [Logging.note_none] at h ⊢
  generalize fs.discover root recursive = found at h ⊢
  generalize fs.exists? root = there at h ⊢
  cases there with
  | error e => cases h
  | ok there =>
    cases there with
    | false => cases h
    | true =>
      cases hfound : found.result with
      | error e =>
        simp only [hfound] at h
        cases h
      | ok inputs =>
        cases hdone : (generateEach none root out w fs inputs).result with
        | error e =>
          simp only [hfound, hdone] at h
          cases h
        | ok outcomes =>
          simp only [hfound, hdone, Except.ok.injEq] at h ⊢
          subst h
          exact ⟨inputs, rfl, hdone, rfl⟩

/-- When a run comes to its end, every file that is new is the stub file of an input that was generated,
with all that the writer emits for its services; and where the writer gives up on an input, the outcome
of that input is a write error and there is no file once the input has been processed. -/
theorem generate_complete {fs : FileSystem} {root out : Path} {recursive : Bool} {w : Writer}
    {report : Report} (hw : w.Untouching)
    (h : (generate none fs root out recursive w).result = .ok report) :
    ∃ inputs, (fs.discover root recursive).result = .ok inputs ∧
      (∀ loc bytes, (generate none fs root out recursive w).fs.get? loc = some (.file bytes) →
        (∀ held, fs.get? loc ≠ some (.file held)) →
        ∃ o ∈ report.outcomes, o.input ∈ inputs ∧
          IsStub fs root out w o (generate none fs root out recursive w).fs loc bytes) ∧
      ∀ before input after services loc, inputs = before ++ input :: after →
        Attempted (filesAfter fs root out w before) root out input w services loc →
        (¬ ∃ bytes, w.Emits (baseName input) [] services bytes) →
        (∃ o, report.outcomes[before.length]? = some o ∧ o.input = input ∧ o.status = .writeError) ∧
          (filesAfter fs root out w (before ++ [input])).get? loc = none := by
  obtain ⟨inputs, hfound, hresult, hfs⟩ := generate_eq_ok h
  refine ⟨inputs, hfound, ?_, ?_⟩
  · intro loc bytes hnew hold
    rw [hfs] at hnew ⊢
    exact isStub_of_generateEach hw hresult (FileSystem.all_discover root inputs hfound) hnew hold
  · rintro before input after services loc rfl hattempted hgives
    obtain ⟨o, ho, hstep, hfiles⟩ := generateEach_split hresult
    obtain ⟨hgone, o', ho', hinput, hstatus⟩ := hattempted.failed hw hgives
    cases hstep.symm.trans ho'
    exact ⟨⟨o, ho, hinput, hstatus⟩, hfiles ▸ hgone⟩

def twoServices : FileSystem where
  entries := [(["p"], .file (Text.encode "service S\x7b\x7d service T\x7b\x7d".toList))]
  here := []

def bothServices : List Service := [⟨"S", [], by decide⟩, ⟨"T", [], by decide⟩]

/-- A writer that gives up on the second service once it has written the first. -/
def reluctant : Writer := Recorder.writer { failures := [("T", "no")] }

lemma reluctant_gives_up : ¬ ∃ bytes, reluctant.Emits (baseName (.ofString "/p")) [] bothServices bytes := by
  rintro ⟨bytes, he⟩
  have hfailure : (reluctant.emitAll (baseName (.ofString "/p"))
      (reluctant.fileName (baseName (.ofString "/p"))) [] bothServices).failure.isSome = true := by
    decide +kernel
  rw [(Writer.emits_iff.mp he).1] at hfailure
  cases hfailure

lemma reluctant_attempted :
    Attempted twoServices (.ofString "/p") (.ofString "/o") (.ofString "/p") reluctant bothServices
      ["o", "p.stub"] where
  services := eq_ok_of_toOption (by decide +kernel)
  opened := by
    have hopened : (openOutput twoServices (.ofString "/o/p.stub")).1 = .ok (some ["o", "p.stub"]) := by
      decide +kernel
    refine ⟨.ofString "/o/p.stub", (openOutput twoServices (.ofString "/o/p.stub")).2,
      by decide +kernel, by decide +kernel, ?_⟩
    rw [← hopened]

theorem twoServices_complete :
    (∃ report, (generate none twoServices (.ofString "/p") (.ofString "/o") false
        (Recorder.writer {})).result = .ok report ∧
      ∃ o ∈ report.outcomes, IsStub twoServices (.ofString "/p") (.ofString "/o") (Recorder.writer {}) o
        (generate none twoServices (.ofString "/p") (.ofString "/o") false (Recorder.writer {})).fs
        ["o", "p.stub"] (Text.encode "S:\nT:\n".toList)) ∧
    ∃ report, (generate none twoServices (.ofString "/p") (.ofString "/o") false reluctant).result
        = .ok report ∧
      (∃ o, report.outcomes[0]? = some o ∧ o.input = .ofString "/p" ∧ o.status = .writeError) ∧
      (filesAfter twoServices (.ofString "/p") (.ofString "/o") reluctant [.ofString "/p"]).get?
        ["o", "p.stub"] = none := by
  constructor
  · obtain ⟨hreport, hmade⟩ := (by decide +kernel : (generate none twoServices (.ofString "/p") (.ofString "/o") false
        (Recorder.writer {})).result.toOption.isSome = true ∧
      (generate none twoServices (.ofString "/p") (.ofString "/o") false (Recorder.writer {})).fs.get? ["o", "p.stub"] =
        some (.file (Text.encode "S:\nT:\n".toList)))
    obtain ⟨report, hreport⟩ := Option.isSome_iff_exists.mp hreport
    have hresult := eq_ok_of_toOption hreport
    obtain ⟨inputs, -, hnew, -⟩ := generate_complete (Recorder.writer_untouching {}) hresult
    have hold : twoServices.get? ["o", "p.stub"] = none := by decide +kernel
    obtain ⟨o, ho, -, hstub⟩ := hnew ["o", "p.stub"] (Text.encode "S:\nT:\n".toList) hmade (by simp [hold])
    exact ⟨report, hresult, o, ho, hstub⟩
  · obtain ⟨report, hreport⟩ := Option.isSome_iff_exists.mp (by decide +kernel : (generate none twoServices
      (.ofString "/p") (.ofString "/o") false reluctant).result.toOption.isSome = true)
    have hresult := eq_ok_of_toOption hreport
    obtain ⟨inputs, hfound, -, hfailed⟩ := generate_complete (Recorder.writer_untouching _) hresult
    have hfile : (twoServices.discover (.ofString "/p") false).result = .ok [.ofString "/p"] := by
      decide +kernel
    cases hfile.symm.trans hfound
    exact ⟨report, hresult, hfailed [] (.ofString "/p") [] bothServices ["o", "p.stub"] rfl
      reluctant_attempted reluctant_gives_up⟩

end Stubsmith.Generation
