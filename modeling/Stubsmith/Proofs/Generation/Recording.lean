import Mathlib.Data.List.Permutation
import Stubsmith.Proofs.Generation.Separation
import Stubsmith.Proofs.Service.Declaration

/-!
# What a recording writer is asked to write

The requests that a recording writer sees follow the report: for an input whose stub was generated they are those
for its services, for one at which the writer failed those up to the first failure, and for any other none. The
services are those that the text of the input declares, in its order.
-/
namespace Stubsmith

namespace Recorder

variable {r : Recorder} {base : String} {held : Text.Bytes} {s : Service} {ss : List Service}

/-- The writer is told to fail for the service. -/
def FailsFor (r : Recorder) (s : Service) : Prop := s.name ∈ r.failures.map Prod.fst

instance (r : Recorder) : DecidablePred r.FailsFor := fun s =>
  inferInstanceAs (Decidable (s.name ∈ r.failures.map Prod.fst))

/-- The services up to the first one that fails, that one included. -/
def attempted (r : Recorder) (services : List Service) : List Service :=
  services.take (services.findIdx (r.FailsFor ·) + 1)

/-- The request to write a service of an input with the base name. -/
def request (r : Recorder) (base : String) (s : Service) : WriteCall := ⟨s, base, r.writer.fileName base⟩

lemma failureFor_eq_none : r.failureFor s.name = none ↔ ¬ r.FailsFor s := by
  rw [failureFor, Option.map_eq_none_iff, List.find?_eq_none, FailsFor, List.mem_map]
  constructor
  · rintro h ⟨e, he, hname⟩
    exact h e he (beq_iff_eq.mpr hname)
  · intro h e he hname
    exact h ⟨e, he, beq_iff_eq.mp hname⟩

lemma attempted_of_fails (h : r.FailsFor s) : r.attempted (s :: ss) = [s] := by
  simp [attempted, List.findIdx_cons, h]

lemma attempted_of_not_fails (h : ¬ r.FailsFor s) : r.attempted (s :: ss) = s :: r.attempted ss := by
  simp [attempted, List.findIdx_cons, h]

lemma attempted_eq_self (h : ∀ s ∈ ss, ¬ r.FailsFor s) : r.attempted ss = ss := by
  induction ss with
  | nil => rfl
  | cons s ss ih =>
    rw [List.forall_mem_cons] at h
    rw [attempted_of_not_fails h.1, ih h.2]

/-- A failure is recorded and nothing is written. -/
lemma emit_of_fails (h : r.FailsFor s) : ∃ m, r.writer.emit s base (r.writer.fileName base) held =
    { failure := some (.refused m), recorded := [r.request base s] } := by
  cases hf : r.failureFor s.name with
  | none => exact absurd h (failureFor_eq_none.mp hf)
  | some m =>
    refine ⟨m, ?_⟩
    simp only [writer, hf]
    rfl

lemma emit_of_not_fails (h : ¬ r.FailsFor s) : r.writer.emit s base (r.writer.fileName base) held =
    { appended := Text.encode (line s).toList, recorded := [r.request base s] } := by
  simp only [writer, failureFor_eq_none.mpr h]
  rfl

/-- The services are requested in order up to the first failure, and there is a failure exactly if one of them
fails. -/
lemma emitAll_recorded (r : Recorder) (base : String) (held : Text.Bytes) (ss : List Service) :
    (r.writer.emitAll base (r.writer.fileName base) held ss).recorded =
        (r.attempted ss).map (r.request base) ∧
      ((r.writer.emitAll base (r.writer.fileName base) held ss).failure = none ↔
        ∀ s ∈ ss, ¬ r.FailsFor s) := by
  induction ss generalizing held with
  | nil => exact ⟨rfl, by simp [Writer.emitAll]⟩
  | cons s ss ih =>
    rw [Writer.emitAll, List.forall_mem_cons]
    by_cases hs : r.FailsFor s
    · obtain ⟨m, hm⟩ := @emit_of_fails r base held s hs
      rw [hm, attempted_of_fails hs]
      exact ⟨rfl, by simp [hs]⟩
    · rw [emit_of_not_fails hs, attempted_of_not_fails hs, List.map_cons]
      obtain ⟨hrecorded, hfailure⟩ := ih (held ++ Text.encode (line s).toList)
      exact ⟨congrArg (r.request base s :: ·) hrecorded, by simp [hs, hfailure]⟩

end Recorder

namespace Generation

open Files (Path FileSystem Location)
open Service (DeclaredIn)

variable {fs start : FileSystem} {root out input target : Path} {r : Recorder} {services : List Service}
variable {inputs : List Path} {o : Outcome} {outcomes : List Outcome}

/-- The services in an input file; none if it is no source of services. -/
def extracted (fs : FileSystem) (input : Path) : List Service := ((servicesOf fs input).1.toOption).getD []

/-- The services for which the writer is asked, by what became of their input. -/
def asked (r : Recorder) (services : List Service) : Status → List Service
  | .generated => services
  | .writeError => r.attempted services
  | _ => []

/-- The requests for an input with the outcome. -/
def requests (r : Recorder) (fs : FileSystem) (o : Outcome) : List WriteCall :=
  (asked r (extracted fs o.input) o.status).map (r.request (baseName o.input))

/-- The outcome says whether the writer failed for one of the services. -/
structure Judged (r : Recorder) (services : List Service) (o : Outcome) : Prop where
  failed : o.status = .writeError → ∃ s ∈ services, r.FailsFor s
  finished : o.status = .generated → ∀ s ∈ services, ¬ r.FailsFor s

/-- An outcome of an input that no file was opened for. -/
lemma Judged.of_unwritten (hw : o.status ≠ .writeError) (hg : o.status ≠ .generated) : Judged r services o :=
  ⟨fun h => absurd h hw, fun h => absurd h hg⟩

lemma fill_recorded {loc : Location} (h : (fill fs input target loc r.writer services).result = .ok o) :
    o.input = input ∧ Judged r services o ∧
      (fill fs input target loc r.writer services).calls =
        (asked r services o.status).map (r.request (baseName input)) := by
  obtain ⟨hrecorded, hfailure⟩ := r.emitAll_recorded (baseName input) [] services
  unfold fill at h ⊢
  dsimp only at h ⊢
  split at h
  · next failure hsome =>
    cases h
    rw [hsome] at hfailure
    refine ⟨rfl, ⟨fun _ => ?_, fun hg => by cases hg⟩, hrecorded⟩
    simpa using hfailure
  · next hnone =>
    have hall := hfailure.mp hnone
    split at h
    · cases h
    · cases h
      refine ⟨rfl, ⟨fun hw => (by cases hw), fun _ => hall⟩, ?_⟩
      rw [hrecorded, Recorder.attempted_eq_self hall]
      rfl

lemma writeServices_recorded (h : (writeServices fs input target r.writer services).result = .ok o) :
    o.input = input ∧ Judged r services o ∧
      (writeServices fs input target r.writer services).calls =
        (asked r services o.status).map (r.request (baseName input)) := by
  unfold writeServices at h ⊢
  dsimp only at h ⊢
  split at h
  · cases h
  · cases h
    exact ⟨rfl, .of_unwritten (by simp) (by simp), rfl⟩
  · split at h
    · cases h
    · cases h
      exact ⟨rfl, .of_unwritten (by simp) (by simp), rfl⟩
    · cases h
      exact ⟨rfl, .of_unwritten (by simp) (by simp), rfl⟩
    · exact fill_recorded h

/-- The requests for one input are those for its services, as far as its outcome says. -/
lemma generateFile_recorded (h : (generateFile fs root out input r.writer).result = .ok o) :
    o.input = input ∧ Judged r (extracted fs input) o ∧
      (o.status = .generated ∨ o.status = .writeError →
        (servicesOf fs input).1 = .ok (extracted fs input)) ∧
      (generateFile fs root out input r.writer).calls = requests r fs o := by
  unfold generateFile at h ⊢
  split at h
  · cases h
  · cases h
  · cases h
    exact ⟨rfl, .of_unwritten (by simp) (by simp), by simp, rfl⟩
  · cases h
    exact ⟨rfl, .of_unwritten (by simp) (by simp), by simp, rfl⟩
  · next services log _ hservices =>
    have hextracted : extracted fs input = services := by
      rw [extracted, hservices]
      rfl
    split at h
    · cases h
    · obtain ⟨rfl, hjudged, hcalls⟩ := writeServices_recorded h
      rw [requests, hextracted]
      exact ⟨rfl, hjudged, fun _ => by rw [hservices], hcalls⟩

/-- The requests for inputs that have been there since the start. -/
lemma generateEach_recorded (hstart : start.Extends fs) (hfiles : ∀ p ∈ inputs, start.isFile p = .ok true)
    (h : (generateEach none root out r.writer fs inputs).result = .ok outcomes) :
    (generateEach none root out r.writer fs inputs).calls = outcomes.flatMap (requests r start) ∧
      ∀ o ∈ outcomes, Judged r (extracted start o.input) o ∧
        (o.status = .generated ∨ o.status = .writeError →
          (servicesOf start o.input).1 = .ok (extracted start o.input)) := by
  induction inputs generalizing fs outcomes with
  | nil =>
    cases h
    exact ⟨rfl, by simp⟩
  | cons input inputs ih =>
    rw [List.forall_mem_cons] at hfiles
    cases hfirst : (generateFile fs root out input r.writer).result with
    | error e =>
      rw [(generateEach_of_error hfirst inputs).2] at h
      cases h
    | ok o =>
      rw [(generateEach_of_ok hfirst inputs).2] at h
      obtain ⟨os, hos, rfl⟩ := exists_of_map_eq_ok h
      have hsame : servicesOf fs input = servicesOf start input := servicesOf_of_extends hstart hfiles.1
      have hextracted : extracted fs input = extracted start input := by rw [extracted, hsame, extracted]
      obtain ⟨rfl, hjudged, hsource, hcalls⟩ := generateFile_recorded hfirst
      have hnext := extends_generateFile (Recorder.writer_untouching r) fs root out o.input
      obtain ⟨hothers, hall⟩ := ih (hstart.trans hnext) hfiles.2 hos
      rw [requests, hextracted] at hcalls
      rw [hextracted] at hjudged hsource
      rw [hsame] at hsource
      refine ⟨?_, List.forall_mem_cons.mpr ⟨⟨hjudged, hsource⟩, hall⟩⟩
      rw [generateEach_cons]
      simp only [hfirst, hcalls, hothers, List.flatMap_cons]
      rfl

lemma generate_calls {recursive : Bool} {w : Writer} (hfound : (fs.discover root recursive).result = .ok inputs) :
    (generate none fs root out recursive w).calls = (generateEach none root out w fs inputs).calls := by
  unfold generate
  simp only [FileSystem.exists_of_discover hfound, Logging.note_none, hfound]
  cases (generateEach none root out w fs inputs).result with
  | error e => rfl
  | ok outcomes => rfl

/-- The services of an input are those that its text declares. -/
lemma declaredIn_of_services (h : (servicesOf fs input).1 = .ok services) :
    ∃ bytes text file, fs.readFile input = .ok bytes ∧ sourceText bytes = .ok text ∧
      DeclaredIn text.toList file services := by
  unfold servicesOf parseFile at h
  cases hread : fs.readFile input with
  | error e => cases e <;> simp [hread] at h
  | ok bytes =>
    cases hparse : parseBytes input.text bytes with
    | error e => simp [hread, hparse] at h
    | ok tree =>
      simp only [hread, hparse] at h
      obtain ⟨text, htext, htree⟩ := parse_of_parseBytes hparse
      obtain ⟨services', file, hservices, hfile⟩ := Service.declaredIn_of_parse htree
      obtain rfl : services' = services := Except.ok.inj (hservices.symm.trans (mapError_eq_ok.mp h))
      exact ⟨bytes, text, file, rfl, htext, hfile⟩

/-- What a recording writer sees of a run that comes to its end: for each outcome, in order, the requests for the
services of its input if its stub was generated, those up to the first failure if the writer failed, else none;
and the services are those that the text of the input declares. -/
theorem generate_recorded {recursive : Bool} {report : Report}
    (h : (generate none fs root out recursive r.writer).result = .ok report) :
    (generate none fs root out recursive r.writer).calls = report.outcomes.flatMap (requests r fs) ∧
      ∀ o ∈ report.outcomes, Judged r (extracted fs o.input) o ∧
        (o.status = .generated ∨ o.status = .writeError →
          ∃ bytes text file, fs.readFile o.input = .ok bytes ∧ sourceText bytes = .ok text ∧
            DeclaredIn text.toList file (extracted fs o.input)) := by
  obtain ⟨inputs, hfound, hresult, -⟩ := generate_eq_ok h
  obtain ⟨hcalls, hall⟩ := generateEach_recorded (.refl fs) (FileSystem.all_discover root inputs hfound) hresult
  refine ⟨?_, fun o ho => ⟨(hall o ho).1, fun hwritten => declaredIn_of_services ((hall o ho).2 hwritten)⟩⟩
  rw [generate_calls hfound, hcalls]

/-- Four inputs: one with three services and a method with a stream, one with a single service, one with none, and
one that is no proto file. -/
def mixedInputs : FileSystem where
  entries := [(["in"], .folder),
    (["in", "a.proto"], .file (Text.encode ("service S\x7brpc A(stream X)returns(Y);rpc B(X)returns(Y);\x7d" ++
      "service T\x7b\x7dservice U\x7b\x7d").toList)),
    (["in", "b.proto"], .file (Text.encode "service V\x7b\x7d".toList)),
    (["in", "c.proto"], .file []),
    (["in", "d.proto"], .file (Text.encode ['x']))]
  here := []

/-- The recording writer that fails for the second service. -/
def secondFails : Recorder where
  failures := [("T", "no")]

lemma mixedInputs_found : (mixedInputs.discover (.ofString "in") false).result =
    .ok [.ofString "in/a.proto", .ofString "in/b.proto", .ofString "in/c.proto", .ofString "in/d.proto"] := by
  have hlinks : mixedInputs.LinkFree := by decide +kernel
  exact hlinks.discover_of_files ["in"] ["a.proto", "b.proto", "c.proto", "d.proto"] (by decide +kernel) (by cbv)
    (by decide +kernel)

/-- The run stops at the second of the three services, and takes the other inputs as they are. -/
lemma mixedInputs_each :
    let each := generateEach none (.ofString "in") (.ofString "o") secondFails.writer mixedInputs
      [.ofString "in/a.proto", .ofString "in/b.proto", .ofString "in/c.proto", .ofString "in/d.proto"]
    each.result.toOption.map (List.map Outcome.status) = some [.writeError, .generated, .noServices, .parseError] ∧
      each.calls.map (fun c => (c.service.name, c.service.methodNames, c.base, c.fileName)) =
        [("S", ["B"], "a", "a.stub"), ("T", [], "a", "a.stub"), ("V", [], "b", "b.stub")] := by
  decide +kernel

theorem mixedInputs_recorded :
    let done := generate none mixedInputs (.ofString "in") (.ofString "o") false secondFails.writer
    done.calls.map (fun c => (c.service.name, c.service.methodNames, c.base, c.fileName)) =
        [("S", ["B"], "a", "a.stub"), ("T", [], "a", "a.stub"), ("V", [], "b", "b.stub")] ∧
      ∃ report, done.result = .ok report ∧
        report.outcomes.map Outcome.status = [.writeError, .generated, .noServices, .parseError] ∧
        done.calls = report.outcomes.flatMap (requests secondFails mixedInputs) ∧
        ∀ o ∈ report.outcomes, o.status = .writeError → ∃ bytes text file,
          mixedInputs.readFile o.input = .ok bytes ∧ sourceText bytes = .ok text ∧
            DeclaredIn text.toList file (extracted mixedInputs o.input) := by
  obtain ⟨hstatuses, hasked⟩ := mixedInputs_each
  obtain ⟨outcomes, houtcomes, hstatuses⟩ := Option.map_eq_some_iff.mp hstatuses
  obtain ⟨-, hruns⟩ := @generate_of_discover _ _ (.ofString "o") secondFails.writer _ _ mixedInputs_found
  rw [eq_ok_of_toOption houtcomes] at hruns
  obtain ⟨hcalls, hall⟩ := generate_recorded hruns
  refine ⟨?_, ⟨outcomes⟩, hruns, hstatuses, hcalls, fun o ho hw => (hall o ho).2 (Or.inr hw)⟩
  rw [generate_calls mixedInputs_found]
  exact hasked

end Generation

end Stubsmith
