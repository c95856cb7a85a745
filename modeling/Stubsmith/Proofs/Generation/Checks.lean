import Stubsmith.Proofs.Files.Standing
import Stubsmith.Proofs.Generation.Separation

/-!
# Checks before a run

A request passes four checks in order: there is an input, the output is no file, there is a writer, and the output
folder can be made. The first one that fails is what the request is refused with. A request that is refused leaves
no trace, folders on the way to the output folder apart, and nothing is written. One that passes them all is carried
out in the file system in which the output folder stands. It is refused after all if its input is a device, and else only
if the working folder has been removed.
-/
namespace Stubsmith

/-- The factory whose writers emit something else. -/
def Factory.emitting (emit : Service → String → String → Text.Bytes → Emission) (f : Factory) : Factory :=
  { f with make := fun fs => ((f.make fs).1.map fun w => { w with emit := emit }, (f.make fs).2) }

/-- The registry whose writers emit something else. -/
def Registry.emitting (emit : Service → String → String → Text.Bytes → Emission) (r : Registry) : Registry :=
  ⟨r.entries.map fun e => (e.1, e.2.emitting emit)⟩

namespace Registry

variable {r : Registry} {emit : Service → String → String → Text.Bytes → Emission}

lemma names_emitting : (r.emitting emit).names = r.names := by
  rw [names, emitting, List.map_map]
  rfl

lemma get?_emitting (n : String) : (r.emitting emit).get? n = (r.get? n).map (Factory.emitting emit) := by
  rw [get?, emitting, List.find?_map, Option.map_map, get?, Option.map_map]
  rfl

/-- What the writers emit has no part in which of them is picked. -/
lemma select_emitting (name : Option (List Text.CodePoint)) :
    ((r.emitting emit).select name).1 = (r.select name).1.map (Factory.emitting emit) := by
  unfold select
  dsimp only
  split_ifs with hgiven
  · have hget : (Text.plain? (name.getD [])).bind (r.emitting emit).get? =
        ((Text.plain? (name.getD [])).bind r.get?).map (Factory.emitting emit) := by
      cases Text.plain? (name.getD []) with
      | none => rfl
      | some n => exact get?_emitting n
    rw [hget]
    cases (Text.plain? (name.getD [])).bind r.get? with
    | none => rfl
    | some f => rfl
  · obtain ⟨entries⟩ := r
    cases entries with
    | nil => rfl
    | cons e es => rfl

end Registry

namespace Generation

open Files (Path FileSystem FileError Location)

variable {fs : FileSystem} {root out input target : Path} {w : Writer} {services : List Service}
variable {inputs : List Path} {abort : Abort}

lemma isMissing_file (e : FileError) : (Abort.discovery (.file e)).isMissing = e.isMissing := by
  cases e with
  | nullCharacter => rfl
  | onPath fault path => cases fault <;> rfl

lemma lost_of_fill {loc : Location} (h : (fill fs input target loc w services).result = .error abort)
    (hm : abort.isMissing = true) : (fill fs input target loc w services).fs.lost ≠ 0 := by
  unfold fill at h ⊢
  dsimp only at h ⊢
  split at h
  · cases h
  · split at h
    · next e hreal =>
      cases h
      cases e with
      | linkLoop path => cases hm
      | nullCharacter => cases hm
      | workingFolderLost => exact FileSystem.lost_of_realPath hreal
    · cases h

lemma lost_of_writeServices (h : (writeServices fs input target w services).result = .error abort)
    (hm : abort.isMissing = true) : (writeServices fs input target w services).fs.lost ≠ 0 := by
  unfold writeServices at h ⊢
  dsimp only at h ⊢
  split at h
  · next e hexists =>
    cases h
    obtain ⟨rfl, -⟩ := FileSystem.exists_eq_error.mp hexists
    cases hm
  · cases h
  · split at h
    · cases h
      cases hm
    · cases h
    · cases h
    · exact lost_of_fill h hm

lemma lost_of_generateFile (h : (generateFile fs root out input w).result = .error abort)
    (hm : abort.isMissing = true) : (generateFile fs root out input w).fs.lost ≠ 0 := by
  unfold generateFile at h ⊢
  split at h
  · cases h
    cases hm
  · cases h
    cases hm
  · cases h
  · cases h
  · split at h
    · cases h
      cases hm
    · exact lost_of_writeServices h hm

lemma lost_of_generateEach (h : (generateEach none root out w fs inputs).result = .error abort)
    (hm : abort.isMissing = true) : (generateEach none root out w fs inputs).fs.lost ≠ 0 := by
  induction inputs generalizing fs with
  | nil => cases h
  | cons input inputs ih =>
    cases hfirst : (generateFile fs root out input w).result with
    | error e =>
      obtain ⟨hfs, hresult⟩ := generateEach_of_error hfirst inputs
      rw [hresult] at h
      cases h
      rw [hfs]
      exact lost_of_generateFile hfirst hm
    | ok o =>
      obtain ⟨hfs, hresult⟩ := generateEach_of_ok hfirst inputs
      rw [hfs]
      rw [hresult] at h
      cases hrest : (generateEach none root out w (generateFile fs root out input w).fs inputs).result with
      | ok os =>
        rw [hrest] at h
        cases h
      | error e =>
        rw [hrest] at h
        cases h
        exact ih hrest

/-- A run from a folder or a file that is there can lack nothing but the working folder. -/
lemma lost_of_generate {recursive : Bool} (hw : w.Untouching)
    (hs : fs.stat root = .ok .folder ∨ ∃ bytes, fs.stat root = .ok (.file bytes))
    (h : (generate none fs root out recursive w).result = .error abort) (hm : abort.isMissing = true) :
    fs.lost ≠ 0 := by
  have hexists : fs.exists? root = .ok true := by
    rcases hs with hstat | ⟨bytes, hstat⟩ <;> simp [FileSystem.exists?, FileSystem.ask, hstat]
  cases hfound : (fs.discover root recursive).result with
  | error e =>
    have habort : abort = .discovery e := by
      unfold generate at h
      simp only [hexists, hfound] at h
      exact (Except.error.inj h).symm
    subst habort
    rcases FileSystem.discover_eq_error hs hfound with ⟨fault, rfl, hfault⟩ | ⟨real, rfl, hlost⟩
    · rw [isMissing_file, hfault] at hm
      cases hm
    · cases real with
      | linkLoop path => cases hm
      | nullCharacter => cases hm
      | workingFolderLost => exact hlost rfl
  | ok inputs =>
    obtain ⟨hfs, hresult⟩ := @generate_of_discover fs root out w inputs recursive hfound
    rw [hresult] at h
    have hsame := (extends_generateEach hw fs root out inputs).lost
    cases heach : (generateEach none root out w fs inputs).result with
    | ok outcomes =>
      rw [heach] at h
      cases h
    | error e =>
      rw [heach] at h
      cases h
      rw [← hsame]
      exact lost_of_generateEach heach hm

/-- A run from a device finds no input. -/
lemma generate_of_device {recursive : Bool} (hs : fs.stat root = .ok .device) :
    (generate none fs root out recursive w).result = .error (.discovery (.missing root)) ∧
      (generate none fs root out recursive w).fs = fs ∧ (generate none fs root out recursive w).calls = [] := by
  have hexists : fs.exists? root = .ok true := by simp [FileSystem.exists?, FileSystem.ask, hs]
  unfold generate
  simp only [hexists, FileSystem.discover_of_device hs, Logging.note_none]
  exact ⟨trivial, trivial, trivial⟩

variable {req : Request} {registry : Registry} {source : WriterSource} {refusal : Refusal}

/-- Something stands at the input. -/
def inputCheck (fs : FileSystem) (req : Request) : Option Refusal :=
  match req.input.path?.map fs.exists? with
  | some (.ok true) => none
  | _ => some (.inputMissing req.input)

/-- What stands at the output, if anything, is a folder. -/
def outputCheck (fs : FileSystem) (req : Request) : Option Refusal :=
  match req.out.path?.map fun p => (fs.exists? p, fs.isFolder p) with
  | some (.ok true, .ok false) => some (.outputIsFile req.out)
  | _ => none

/-- A writer is known. -/
def writerCheck (registry : Registry) (req : Request) : Option Refusal :=
  match (registry.select req.writer).1 with
  | some _ => none
  | none => some (unresolved registry req.writer)

/-- The output folder can be made. -/
def folderCheck (fs : FileSystem) (req : Request) : Option Refusal :=
  req.out.path?.bind fun p =>
    match (fs.ensureFolder p).1 with
    | .ok () => none
    | .error e => some (.outputFolder req.out e)

/-- The checks of a request in order, each made on its own. -/
def checks (fs : FileSystem) (registry : Registry) (req : Request) : List (Option Refusal) :=
  [inputCheck fs req, outputCheck fs req, writerCheck registry req, folderCheck fs req]

/-- What the first check that fails refuses with. -/
def firstFailing (checks : List (Option Refusal)) : Option Refusal := checks.findSome? id

/-- The writers that a run can pick from. -/
def WriterSource.known : WriterSource → Registry
  | .registry r => r
  | .installed plugins => (Registry.default plugins).registry

/-- The run is refused. It leaves the files `after` and has asked no writer for anything. -/
structure Refused (done : Done RunResult) (refusal : Refusal) (after : FileSystem) : Prop where
  report : ∃ result, done.result = .ok result ∧ result.report = .error refusal
  files : done.fs = after
  calls : done.calls = []

/-- One piece of work did what the other did, records apart. -/
structure Same (done other : Done RunResult) : Prop where
  result : done.result = other.result
  files : done.fs = other.fs
  calls : done.calls = other.calls

lemma Refused.of_same {done other : Done RunResult} {after : FileSystem} (h : Refused other refusal after)
    (hsame : Same done other) : Refused done refusal after where
  report := hsame.result ▸ h.report
  files := hsame.files.trans h.files
  calls := hsame.calls.trans h.calls

lemma run_of_missing {result : RunResult} (h : inputCheck fs req = some refusal)
    (hr : (run none fs source req).result = .ok result) (other : WriterSource) :
    Refused (run none fs other req) refusal fs := by
  unfold inputCheck at h
  unfold run at hr ⊢
  cases hpath : req.input.path? with
  | none =>
    rw [hpath] at h
    cases h
    exact ⟨⟨_, rfl, rfl⟩, rfl, rfl⟩
  | some input =>
    rw [hpath, Option.map_some] at h
    rw [hpath] at hr
    dsimp only at hr ⊢
    cases hexists : fs.exists? input with
    | error e =>
      rw [hexists] at hr
      cases hr
    | ok there =>
      rw [hexists] at h
      cases there with
      | true => cases h
      | false =>
        cases h
        exact ⟨⟨_, rfl, rfl⟩, rfl, rfl⟩

lemma exists_of_inputCheck (h : inputCheck fs req = none) :
    ∃ input, req.input.path? = some input ∧ fs.exists? input = .ok true := by
  unfold inputCheck at h
  split at h
  · next hthere => exact Option.map_eq_some_iff.mp hthere
  · cases h

lemma run_of_input (hpath : req.input.path? = some input) (hexists : fs.exists? input = .ok true)
    (source : WriterSource) : run none fs source req = runInput none fs source req input := by
  unfold run
  simp only [hpath, hexists]

lemma runInput_of_blocked (h : outputCheck fs req = some refusal) (source : WriterSource) :
    Refused (runInput none fs source req input) refusal fs := by
  unfold outputCheck at h
  split at h
  · next hout =>
    cases h
    obtain ⟨p, hpath, hp⟩ := Option.map_eq_some_iff.mp hout
    obtain ⟨hexists, hfolder⟩ := Prod.mk.inj hp
    have hblocked : blocked fs req.out = .ok true := by
      simp [blocked, hpath, hexists, hfolder, bind, Except.bind, pure, Except.pure]
    unfold runInput
    rw [hblocked]
    exact ⟨⟨_, rfl, rfl⟩, rfl, rfl⟩
  · cases h

lemma outputCheck_of_blocked (h : blocked fs req.out = .ok true) :
    outputCheck fs req = some (.outputIsFile req.out) := by
  unfold blocked at h
  unfold outputCheck
  cases hpath : req.out.path? with
  | none =>
    rw [hpath] at h
    cases h
  | some p =>
    simp only [hpath] at h
    cases hexists : fs.exists? p with
    | error e => simp [hexists, bind, Except.bind] at h
    | ok there =>
      cases hfolder : fs.isFolder p with
      | error e => cases there <;> simp [hexists, hfolder, bind, Except.bind, pure, Except.pure] at h
      | ok folder =>
        cases there <;> cases folder <;>
          simp [hexists, hfolder, bind, Except.bind, pure, Except.pure] at h ⊢

/-- A run with an output that is clear goes on with the writers that it knows. -/
lemma runInput_of_clear {result : RunResult} (h : outputCheck fs req = none)
    (hr : (runInput none fs source req input).result = .ok result) :
    Same (runInput none fs source req input) (runFrom none fs source.known req input) ∧
      ∀ r, runInput none fs (.registry r) req input = runFrom none fs r req input := by
  have hclear : blocked fs req.out = .ok false := by
    cases hblocked : blocked fs req.out with
    | error e =>
      unfold runInput at hr
      rw [hblocked] at hr
      cases hr
    | ok there =>
      cases there with
      | false => rfl
      | true =>
        rw [outputCheck_of_blocked hblocked] at h
        cases h
  unfold runInput at hr ⊢
  rw [hclear] at hr ⊢
  refine ⟨?_, fun r => rfl⟩
  cases source with
  | registry r => exact ⟨rfl, rfl, rfl⟩
  | installed plugins =>
    simp only [Logging.note_none] at hr ⊢
    cases hfailure : (Registry.default plugins).failure with
    | some e =>
      rw [hfailure] at hr
      cases hr
    | none => exact ⟨rfl, rfl, rfl⟩

lemma runFrom_of_unknown (h : writerCheck registry req = some refusal) :
    Refused (runFrom none fs registry req input) refusal fs := by
  unfold writerCheck at h
  split at h
  · cases h
  · next hselect =>
    cases h
    unfold runFrom
    rw [show registry.select req.writer = (none, (registry.select req.writer).2) from Prod.ext hselect rfl]
    exact ⟨⟨_, rfl, rfl⟩, rfl, rfl⟩

lemma writerCheck_emitting {emit : Service → String → String → Text.Bytes → Emission} :
    writerCheck (registry.emitting emit) req = writerCheck registry req := by
  unfold writerCheck unresolved
  rw [Registry.select_emitting, Registry.names_emitting]
  cases (registry.select req.writer).1 with
  | none => rfl
  | some f => rfl

lemma runFrom_eq {f : Factory} (hselect : (registry.select req.writer).1 = some f)
    (hmake : f.make fs = (.ok w, fs)) :
    Same (runFrom none fs registry req input) (runWith none fs req input w) := by
  unfold runFrom
  rw [show registry.select req.writer = (some f, (registry.select req.writer).2) from Prod.ext hselect rfl]
  simp only [Logging.note_none, Logging.still_none, hmake]
  exact ⟨rfl, rfl, rfl⟩

/-- A run for which a writer is known comes to an end only if the factory makes one. -/
lemma exists_writer {result : RunResult} (hall : registry.All Factory.Untouching)
    (h : writerCheck registry req = none) (hr : (runFrom none fs registry req input).result = .ok result) :
    ∃ f w, (registry.select req.writer).1 = some f ∧ f.make fs = (.ok w, fs) ∧ w.Untouching := by
  unfold writerCheck at h
  split at h
  · next f hselect =>
    have hpair : registry.select req.writer = (some f, (registry.select req.writer).2) := Prod.ext hselect rfl
    obtain ⟨hfs, hwriter⟩ := hall.select hpair fs
    unfold runFrom at hr
    rw [hpair] at hr
    simp only [Logging.note_none] at hr
    cases hmake : f.make fs with
    | mk made fs' =>
      rw [hmake] at hfs hr
      cases made with
      | error m => cases hr
      | ok w =>
        dsimp only at hfs
        subst hfs
        exact ⟨f, w, hselect, hmake, hwriter w (by rw [hmake])⟩
  · cases h

lemma runWith_of_fault {result : RunResult} (h : folderCheck fs req = some refusal)
    (hr : (runWith none fs req input w).result = .ok result) :
    ∃ out, ∀ w, Refused (runWith none fs req input w) refusal (fs.ensureFolder out).2 := by
  obtain ⟨out, hpath, hfolder⟩ := Option.bind_eq_some_iff.mp h
  refine ⟨out, fun other => ?_⟩
  unfold runWith at hr ⊢
  rw [hpath] at hr ⊢
  dsimp only at hr ⊢
  cases hensure : fs.ensureFolder out with
  | mk made fs' =>
    rw [hensure] at hr hfolder
    cases made with
    | ok u => cases hfolder
    | error e =>
      cases hfolder
      cases e with
      | nullCharacter => cases hr
      | onPath fault path => exact ⟨⟨_, rfl, rfl⟩, rfl, rfl⟩

/-- Once the output folder stands, the stubs are generated. -/
lemma runWith_of_folder {result : RunResult} (h : folderCheck fs req = none)
    (hr : (runWith none fs req input w).result = .ok result) :
    ∃ out, req.out.path? = some out ∧ (fs.ensureFolder out).1 = .ok () ∧ result.writer = some w ∧
      (runWith none fs req input w).fs = (generate none (fs.ensureFolder out).2 input out req.recursive w).fs ∧
      (runWith none fs req input w).calls =
        (generate none (fs.ensureFolder out).2 input out req.recursive w).calls ∧
      ((∃ report, (generate none (fs.ensureFolder out).2 input out req.recursive w).result = .ok report ∧
          result.report = .ok report) ∨
        ∃ abort, (generate none (fs.ensureFolder out).2 input out req.recursive w).result = .error abort ∧
          abort.isMissing = true ∧ result.report = .error (.vanished abort)) := by
  unfold folderCheck at h
  unfold runWith at hr ⊢
  cases hpath : req.out.path? with
  | none =>
    rw [hpath] at hr
    cases hr
  | some out =>
    rw [hpath] at hr h
    dsimp only at hr ⊢
    refine ⟨out, rfl, ?_⟩
    cases hensure : fs.ensureFolder out with
    | mk made fs' =>
      rw [hensure] at hr
      rw [Option.bind_some, hensure] at h
      cases made with
      | error e => cases h
      | ok u =>
        dsimp only at hr ⊢
        cases hdone : (generate none fs' input out req.recursive w).result with
        | ok report =>
          rw [hdone] at hr
          cases hr
          exact ⟨rfl, rfl, rfl, rfl, Or.inl ⟨report, rfl, rfl⟩⟩
        | error abort =>
          rw [hdone] at hr
          dsimp only at hr
          split_ifs at hr with hmissing
          cases hr
          exact ⟨rfl, rfl, rfl, rfl, Or.inr ⟨abort, rfl, hmissing, rfl⟩⟩

lemma WriterSource.Untouching.known (h : source.Untouching) : source.known.All Factory.Untouching := by
  cases source with
  | registry r => exact h
  | installed plugins => exact Registry.all_default Factory.python_untouching h

/-- A run that fails a check is refused with it, whatever the writers would emit. -/
lemma refused_of_check {result : RunResult} (hs : source.Untouching)
    (hr : (run none fs source req).result = .ok result)
    (hfirst : firstFailing (checks fs source.known req) = some refusal) :
    ∃ after, fs.AddsFolders after ∧
      (firstFailing ((checks fs source.known req).take 3) ≠ none → after = fs) ∧
      Refused (run none fs source req) refusal after ∧
      ∀ emit, Refused (run none fs (.registry (source.known.emitting emit)) req) refusal after := by
  -- A check that passes hands the run on to its next stage, for the writers as they are and for the others.
  cases hin : inputCheck fs req with
  | some missing =>
    obtain rfl : missing = refusal := by simpa [firstFailing, checks, hin] using hfirst
    exact ⟨fs, .refl fs, fun _ => rfl, run_of_missing hin hr source, fun emit => run_of_missing hin hr _⟩
  | none =>
    obtain ⟨input, hpath, hexists⟩ := exists_of_inputCheck hin
    have hrun := fun source => run_of_input hpath hexists source
    rw [hrun] at hr
    simp only [hrun]
    cases hout : outputCheck fs req with
    | some taken =>
      obtain rfl : taken = refusal := by simpa [firstFailing, checks, hin, hout] using hfirst
      exact ⟨fs, .refl fs, fun _ => rfl, runInput_of_blocked hout source,
        fun emit => runInput_of_blocked hout _⟩
    | none =>
      obtain ⟨hsame, hregistry⟩ := runInput_of_clear hout hr
      rw [hsame.result] at hr
      simp only [hregistry]
      cases hwriter : writerCheck source.known req with
      | some unknown =>
        obtain rfl : unknown = refusal := by simpa [firstFailing, checks, hin, hout, hwriter] using hfirst
        exact ⟨fs, .refl fs, fun _ => rfl, (runFrom_of_unknown hwriter).of_same hsame,
          fun emit => runFrom_of_unknown (writerCheck_emitting.trans hwriter)⟩
      | none =>
        obtain ⟨f, w, hselect, hmake, -⟩ := exists_writer hs.known hwriter hr
        have hpicked := @runFrom_eq fs input w req source.known f hselect hmake
        rw [hpicked.result] at hr
        have hfault : folderCheck fs req = some refusal := by
          simpa [firstFailing, checks, hin, hout, hwriter] using hfirst
        obtain ⟨out, hrefused⟩ := runWith_of_fault hfault hr
        refine ⟨(fs.ensureFolder out).2, fs.addsFolders_ensureFolder out, ?_,
          ((hrefused w).of_same hpicked).of_same hsame, fun emit => ?_⟩
        · intro hthree
          simp [firstFailing, checks, hin, hout, hwriter] at hthree
        · have hselect' : ((source.known.emitting emit).select req.writer).1 = some (f.emitting emit) := by
            rw [Registry.select_emitting, hselect]
            rfl
          have hmake' : (f.emitting emit).make fs = (.ok { w with emit := emit }, fs) := by
            simp [Factory.emitting, hmake, Except.map]
          exact (hrefused _).of_same (runFrom_eq hselect' hmake')

/-- The writer that is picked has generated, in the file system in which the output folder stands. -/
structure CarriedOut (fs : FileSystem) (source : WriterSource) (req : Request) (result : RunResult)
    (input out : Path) (w : Writer) : Prop where
  inputPath : req.input.path? = some input
  outPath : req.out.path? = some out
  writer : result.writer = some w
  picked : ∃ f, (source.known.select req.writer).1 = some f ∧ (f.make fs).1 = .ok w
  files : (run none fs source req).fs = (generate none (fs.ensureFolder out).2 input out req.recursive w).fs
  calls : (run none fs source req).calls = (generate none (fs.ensureFolder out).2 input out req.recursive w).calls
  folder : (run none fs source req).fs.isFolder out = .ok true
  /-- Generating gives the report, or lacks something: the input is a device, or the working folder is lost. -/
  report : (∃ report, (generate none (fs.ensureFolder out).2 input out req.recursive w).result = .ok report ∧
      result.report = .ok report) ∨
    ∃ abort, (generate none (fs.ensureFolder out).2 input out req.recursive w).result = .error abort ∧
      abort.isMissing = true ∧ result.report = .error (.vanished abort) ∧
      (fs.WellFormed → fs.stat input = .ok .device ∨ fs.lost ≠ 0)
  /-- A device is refused as a missing input once the output folder has been made. -/
  device : fs.stat input = .ok .device → result.report = .error (.vanished (.discovery (.missing input))) ∧
    (run none fs source req).fs = (fs.ensureFolder out).2 ∧ (run none fs source req).calls = []

/-- A run that passes all checks is carried out. -/
lemma carriedOut_of_checks {result : RunResult} (hs : source.Untouching)
    (hr : (run none fs source req).result = .ok result)
    (hfirst : firstFailing (checks fs source.known req) = none) :
    ∃ input out w, CarriedOut fs source req result input out w := by
  obtain ⟨hin, hout, hwriter, hfolder⟩ : inputCheck fs req = none ∧ outputCheck fs req = none ∧
      writerCheck source.known req = none ∧ folderCheck fs req = none := by
    simpa [firstFailing, checks] using hfirst
  obtain ⟨input, hpath, hexists⟩ := exists_of_inputCheck hin
  have hrun := run_of_input hpath hexists source
  rw [hrun] at hr
  obtain ⟨hsame, -⟩ := runInput_of_clear hout hr
  rw [hsame.result] at hr
  obtain ⟨f, w, hselect, hmake, hw⟩ := exists_writer hs.known hwriter hr
  have hpicked := @runFrom_eq fs input w req source.known f hselect hmake
  rw [hpicked.result] at hr
  obtain ⟨out, hto, hmade, hresult, hfs, hasked, hcases⟩ := runWith_of_folder hfolder hr
  have hfiles : (run none fs source req).fs =
      (generate none (fs.ensureFolder out).2 input out req.recursive w).fs := by
    rw [hrun, hsame.files, hpicked.files, hfs]
  have hcalls : (run none fs source req).calls =
      (generate none (fs.ensureFolder out).2 input out req.recursive w).calls := by
    rw [hrun, hsame.calls, hpicked.calls, hasked]
  have hextends := (fs.addsFolders_ensureFolder out).toExtends
  refine ⟨input, out, w, hpath, hto, hresult, ⟨f, hselect, by rw [hmake]⟩, hfiles, hcalls, ?_, ?_, fun hdevice => ?_⟩
  · rw [hfiles]
    exact (extends_generate hw _ input out req.recursive).isFolder (FileSystem.isFolder_ensureFolder hmade)
  · rcases hcases with hreport | ⟨abort, habort, hmissing, hvanished⟩
    · exact Or.inl hreport
    · refine Or.inr ⟨abort, habort, hmissing, hvanished, fun hwell => ?_⟩
      obtain ⟨e, hstat⟩ := FileSystem.stat_of_exists hexists
      rw [← hextends.lost]
      rcases hwell.stat_cases hstat with rfl | ⟨bytes, rfl⟩ | rfl
      · exact Or.inr (lost_of_generate hw (Or.inl (hextends.stat hstat)) habort hmissing)
      · exact Or.inr (lost_of_generate hw (Or.inr ⟨bytes, hextends.stat hstat⟩) habort hmissing)
      · exact Or.inl hstat
  · obtain ⟨hnone, hsteady, hunasked⟩ := @generate_of_device _ input out w req.recursive (hextends.stat hdevice)
    rw [hfiles, hcalls, hsteady, hunasked]
    rw [hnone] at hcases
    rcases hcases with ⟨report, hreport, -⟩ | ⟨abort, habort, -, hvanished⟩
    · cases hreport
    · cases habort
      exact ⟨hvanished, rfl, rfl⟩

/-- What becomes of a request. If a check fails, it is refused with the first that does; but for folders, if the
output folder could not be made, the files are as they were, and nothing is written, whatever the writers would emit.
If none fails, it is carried out; there is a report unless the input is a device or the working folder is lost. -/
theorem run_checked {result : RunResult} (hs : source.Untouching)
    (hr : (run none fs source req).result = .ok result) :
    (∀ refusal, firstFailing (checks fs source.known req) = some refusal →
      result.report = .error refusal ∧ fs.AddsFolders (run none fs source req).fs ∧
        (firstFailing ((checks fs source.known req).take 3) ≠ none → (run none fs source req).fs = fs) ∧
        (run none fs source req).calls = [] ∧
        ∀ emit, Refused (run none fs (.registry (source.known.emitting emit)) req) refusal
          (run none fs source req).fs) ∧
    (firstFailing (checks fs source.known req) = none →
      ∃ input out w, CarriedOut fs source req result input out w) := by
  refine ⟨fun refusal hfirst => ?_, carriedOut_of_checks hs hr⟩
  obtain ⟨after, hadds, hthree, hrefused, hemit⟩ := refused_of_check hs hr hfirst
  obtain ⟨result', hresult', hreport⟩ := hrefused.report
  obtain rfl : result = result' := Except.ok.inj (hr.symm.trans hresult')
  rw [hrefused.files]
  exact ⟨hreport, hadds, hthree, hrefused.calls, hemit⟩

/-- The recording writer alone. -/
def rehearsal : WriterSource := .registry ⟨[(Factory.recorder.name, .recorder)]⟩

lemma rehearsal_untouching : rehearsal.Untouching := by
  intro e he
  rw [List.mem_singleton.mp he]
  refine fun fs => ⟨rfl, fun w hw => ?_⟩
  cases hw
  exact Recorder.writer_untouching {}

/-- A writer that is not known is to write into a file. -/
def hopelessRequest : Request where
  input := .ofPath (.ofString "/p")
  out := .ofPath (.ofString "/p")
  writer := some (Text.points "X".toList)

theorem twoServices_checked :
    (∃ result, (run none twoServices rehearsal hopelessRequest).result = .ok result ∧
      result.report = .error (.outputIsFile hopelessRequest.out) ∧
      (run none twoServices rehearsal hopelessRequest).fs = twoServices) ∧
    ∃ result report, (run none twoServices rehearsal
          { input := .ofPath (.ofString "/p"), out := .ofPath (.ofString "/o") }).result = .ok result ∧
      result.report = .ok report := by
  constructor
  · obtain ⟨result, hresult⟩ := Option.isSome_iff_exists.mp (by decide +kernel :
      (run none twoServices rehearsal hopelessRequest).result.toOption.isSome = true)
    have hr := eq_ok_of_toOption hresult
    obtain ⟨hreport, -, hfiles, -⟩ := (run_checked rehearsal_untouching hr).1 (.outputIsFile hopelessRequest.out)
      (by decide +kernel)
    exact ⟨result, hr, hreport, hfiles (by decide +kernel)⟩
  · obtain ⟨result, hresult⟩ := Option.isSome_iff_exists.mp (by decide +kernel : (run none twoServices rehearsal
      { input := .ofPath (.ofString "/p"), out := .ofPath (.ofString "/o") }).result.toOption.isSome = true)
    have hr := eq_ok_of_toOption hresult
    obtain ⟨input, out, w, hcarried⟩ := (run_checked rehearsal_untouching hr).2 (by decide +kernel)
    rcases hcarried.report with ⟨report, -, hreport⟩ | ⟨abort, -, -, -, hcause⟩
    · exact ⟨result, report, hr, hreport⟩
    · obtain rfl : .ofString "/p" = input := Option.some.inj (hcarried.inputPath.symm.trans rfl).symm
      rcases hcause (by decide +kernel) with hdevice | hlost
      · exact absurd hdevice (by decide +kernel)
      · exact absurd rfl hlost

/-- The file with two services, seen from a folder that has been removed. -/
def strandedServices : FileSystem := { twoServices with here := ["w"], lost := 1 }

/-- An output folder beside the removed one. -/
def strandedRequest : Request where
  input := .ofPath (.ofString "/p")
  out := .ofPath (.ofString "../o")

/-- A file system with a device. -/
def withDevice : FileSystem where
  entries := [(["null"], .device)]
  here := []

/-- Stubs are to be made from the device. -/
def deviceRequest : Request where
  input := .ofPath (.ofString "/null")
  out := .ofPath (.ofString "/o")

/-- All checks pass and the output folder is made, and yet the request is refused: its input is a device, or the working
folder is lost, in which case the stub is made as well. -/
theorem checked_requests_vanish :
    rehearsal.Untouching ∧
    (withDevice.WellFormed ∧ withDevice.lost = 0 ∧
      firstFailing (checks withDevice rehearsal.known deviceRequest) = none ∧
      (run none withDevice rehearsal deviceRequest).fs.isFolder (.ofString "/o") = .ok true ∧
      (run none withDevice rehearsal deviceRequest).result.toOption.map RunResult.report =
        some (.error (.vanished (.discovery (.missing (.ofString "/null")))))) ∧
    (strandedServices.WellFormed ∧
      firstFailing (checks strandedServices rehearsal.known strandedRequest) = none ∧
      (run none strandedServices rehearsal strandedRequest).fs.isFolder (.ofString "../o") = .ok true ∧
      (run none strandedServices rehearsal strandedRequest).result.toOption.map RunResult.report =
        some (.error (.vanished (.real .workingFolderLost)))) := by
  exact ⟨rehearsal_untouching, by decide +kernel, by decide +kernel⟩

end Generation

end Stubsmith
