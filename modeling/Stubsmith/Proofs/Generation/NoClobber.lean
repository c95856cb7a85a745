import Stubsmith.Generation.Run
import Stubsmith.Proofs.Generation.Step

/-!
# Nothing that stands is changed

With writers that leave the files alone, no call changes or removes an entry that was there before it,
whether it comes to its end or is aborted. Over a whole session, whatever stands after one call stands
unchanged after every later one.
-/
namespace Stubsmith.Generation

open Files (Path FileSystem)

variable {w : Writer}

lemma extends_generateFile (hw : w.Untouching) (fs : FileSystem) (root out input : Path) :
    fs.Extends (generateFile fs root out input w).fs := by
  rcases generateFile_cases hw fs root out input with hidle | ⟨loc, bytes, hmade⟩
  · exact hidle.adds.toExtends
  · obtain ⟨target, services, made, -, -, -, hadds, hv, hfs⟩ := hmade.stub
    rw [hfs]
    exact hadds.toExtends.trans (FileSystem.extends_set (FileSystem.get?_vacancy hv) _)

lemma extends_generateEach (hw : w.Untouching) (fs : FileSystem) (root out : Path) (inputs : List Path) :
    fs.Extends (generateEach none root out w fs inputs).fs := by
  induction inputs generalizing fs with
  | nil => exact .refl fs
  | cons input inputs ih =>
    have hfirst := extends_generateFile hw fs root out input
    cases hr : (generateFile fs root out input w).result with
    | error e =>
      rw [(generateEach_of_error hr inputs).1]
      exact hfirst
    | ok o =>
      rw [(generateEach_of_ok hr inputs).1]
      exact hfirst.trans (ih _)

lemma extends_generate (hw : w.Untouching) (fs : FileSystem) (root out : Path) (recursive : Bool) :
    fs.Extends (generate none fs root out recursive w).fs := by
  unfold generate
  simp only [Logging.note_none]
  split
  · exact .refl fs
  · exact .refl fs
  · split
    · exact .refl fs
    · next inputs _ =>
      have heach := extends_generateEach hw fs root out inputs
      split
      · exact heach
      · exact heach

lemma extends_runWith (hw : w.Untouching) (fs : FileSystem) (req : Request) (input : Path) :
    fs.Extends (runWith none fs req input w).fs := by
  unfold runWith
  dsimp only
  split
  · exact .refl fs
  · next out _ =>
    have hfolder := (fs.addsFolders_ensureFolder out).toExtends
    split
    · next he => rwa [he] at hfolder
    · next he => rwa [he] at hfolder
    · next he =>
      rw [he] at hfolder
      exact hfolder.trans (extends_generate hw _ input out req.recursive)

lemma extends_runFrom {registry : Registry} (hr : registry.All Factory.Untouching) (fs : FileSystem)
    (req : Request) (input : Path) : fs.Extends (runFrom none fs registry req input).fs := by
  unfold runFrom
  simp only [Logging.note_none, Logging.still_none]
  split
  · exact .refl fs
  · next factory log hs =>
    obtain ⟨hfs, hwriter⟩ := hr.select hs fs
    split
    · next he =>
      rw [he] at hfs
      dsimp only at hfs ⊢
      rw [hfs]
    · next w fs' he =>
      rw [he] at hfs
      dsimp only at hfs ⊢
      rw [hfs]
      exact extends_runWith (hwriter w (by rw [he])) fs req input

/-- The factories of the source leave the files alone. -/
def WriterSource.Untouching : WriterSource → Prop
  | registry r => r.All Factory.Untouching
  | installed plugins => ∀ p ∈ plugins, ∀ f, p.load = .ok f → f.Untouching

lemma extends_run {source : WriterSource} (hs : source.Untouching) (fs : FileSystem) (req : Request) :
    fs.Extends (run none fs source req).fs := by
  unfold run
  dsimp only
  split
  · exact .refl fs
  · next input _ =>
    split
    · exact .refl fs
    · exact .refl fs
    · unfold runInput
      split
      · exact .refl fs
      · exact .refl fs
      · split
        · exact extends_runFrom hs fs req input
        · next plugins =>
          dsimp only
          split
          · exact .refl fs
          · exact extends_runFrom (Registry.all_default Factory.python_untouching hs) fs req input

/-- A call, or a part of one. Files are generated with a given writer, or a request is carried out; an output folder
is made, or a single input is processed. A call whose writer changes as it goes along, since it remembers what it
has written, is taken in parts: each of its inputs has the writer of that time. -/
inductive Call
  | generate (root out : Path) (recursive : Bool) (w : Writer)
  | run (source : WriterSource) (req : Request)
  | makeFolder (out : Path)
  | process (root out input : Path) (w : Writer)

/-- The files after a call, also after one that was aborted. -/
def Call.perform (fs : FileSystem) : Call → FileSystem
  | generate root out recursive w => (Generation.generate none fs root out recursive w).fs
  | run source req => (Generation.run none fs source req).fs
  | makeFolder out => (fs.ensureFolder out).2
  | process root out input w => (generateFile fs root out input w).fs

/-- The writers of the call leave the files alone. -/
def Call.Untouching : Call → Prop
  | generate _ _ _ w => w.Untouching
  | run source _ => source.Untouching
  | makeFolder _ => True
  | process _ _ _ w => w.Untouching

lemma extends_perform {call : Call} (h : call.Untouching) (fs : FileSystem) :
    fs.Extends (call.perform fs) := by
  cases call with
  | generate root out recursive w => exact extends_generate h fs root out recursive
  | run source req => exact extends_run h fs req
  | makeFolder out => exact (fs.addsFolders_ensureFolder out).toExtends
  | process root out input w => exact extends_generateFile h fs root out input

/-- The files before a session and after each of its calls. -/
def session (fs : FileSystem) (calls : List Call) : List FileSystem := calls.scanl Call.perform fs

lemma extends_of_mem_session {calls : List Call} (h : ∀ call ∈ calls, call.Untouching) {fs fs' : FileSystem}
    (hfs : fs' ∈ session fs calls) : fs.Extends fs' := by
  induction calls generalizing fs with
  | nil =>
    rw [session, List.scanl_nil, List.mem_singleton] at hfs
    rw [hfs]
  | cons call calls ih =>
    rw [List.forall_mem_cons] at h
    rw [session, List.scanl_cons, List.mem_cons] at hfs
    rcases hfs with rfl | hfs
    · rfl
    · exact (extends_perform h.1 fs).trans (ih h.2 hfs)

/-- Whatever stands at some time of a session stands unchanged at every later time. -/
theorem session_keeps {calls : List Call} (h : ∀ call ∈ calls, call.Untouching) (fs : FileSystem) :
    (session fs calls).Pairwise FileSystem.Extends := by
  induction calls generalizing fs with
  | nil => exact List.pairwise_singleton _ fs
  | cons call calls ih =>
    rw [List.forall_mem_cons] at h
    rw [session, List.scanl_cons, List.pairwise_cons]
    refine ⟨fun fs' hfs => ?_, ih h.2 _⟩
    exact (extends_perform h.1 fs).trans (extends_of_mem_session h.2 hfs)

/-- A proto file, and a link that leads nowhere in the place of one of its stubs. -/
def workbench : FileSystem where
  entries := [(["p"], .file (Text.encode "service S\x7brpc M(A)returns(B);\x7d".toList)),
    (["o"], .folder), (["o", "p.stub"], .link "nowhere")]
  here := []

/-- The stub of the file is generated; a writer finds the link in its place; one fails in a new folder;
and the stub is asked for once more. -/
def fourCalls : List Call :=
  [.generate (.ofString "/p") (.ofString "/o") false Python.writer,
    .generate (.ofString "/p") (.ofString "/o") false (Recorder.writer {}),
    .generate (.ofString "/p") (.ofString "/o/n") false (Recorder.writer { failures := [("S", "no")] }),
    .run (.installed []) { input := .ofPath (.ofString "/p"), out := .ofPath (.ofString "/o") }]

theorem fourCalls_keep :
    (∀ call ∈ fourCalls, call.Untouching) ∧
    ((session workbench fourCalls).map fun fs => (fs.get? ["o", "p_service.py"]).isSome) =
      [false, true, true, true, true] ∧
    (session workbench fourCalls).Pairwise FileSystem.Extends := by
  have huntouching : ∀ call ∈ fourCalls, call.Untouching := by
    simp only [fourCalls, List.forall_mem_cons]
    refine ⟨Python.writer_untouching, Recorder.writer_untouching _, Recorder.writer_untouching _, ?_, ?_⟩
    · exact fun p hp => absurd hp List.not_mem_nil
    · exact fun call hcall => absurd hcall List.not_mem_nil
  exact ⟨huntouching, by decide +kernel, session_keeps huntouching workbench⟩

end Stubsmith.Generation
