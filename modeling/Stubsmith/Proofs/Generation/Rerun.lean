import Stubsmith.Proofs.Generation.Recovery

/-!
# Running again changes nothing

After a run, each input is settled. The way to its stub file has been paved as far as that can be done, so
no folder is made there a second time; where a stub file was finished or something stood in its place, it
still stands; and where the writer failed it fails again, leaving what it has found. A second run of the
same kind goes through the same inputs and ends as the first one did, without a single change. That holds
whether or not stub files meet, since an input that finds its place taken is settled as well.
-/
namespace Stubsmith.Generation

open Files (Path FileSystem FileError Location Anchor Entry)
open Files.FileSystem

variable {fs fs' : FileSystem} {root out input : Path} {w : Writer} {inputs : List Path}
variable {a : Anchor} {ps d : List String} {n : String} {services : List Service} {recursive : Bool}

/-- An outcome of a second run, next to that of the first: for the same input, never a new stub file, an
existing one where one was made or found before, and a failure where none could be made. -/
structure Repeats (first again : Outcome) : Prop where
  input : again.input = first.input
  ungenerated : again.status ≠ .generated
  stays : first.status = .generated ∨ first.status = .existing → again.status = .existing
  barred : first.status = .createError → again.status = .createError

/-- Work that has been done once is done again without a change to the files: it is aborted for the same
reason, or its result is in keeping with the first one. -/
structure Redone {α : Type} (R : α → α → Prop) (fs : FileSystem) (first again : Done α) : Prop where
  files : again.fs = fs
  abort : ∀ e, first.result = .error e → again.result = .error e
  result : ∀ x, first.result = .ok x → ∃ y, again.result = .ok y ∧ R x y

section Done

variable {α : Type} {R : α → α → Prop} {first again : Done α}

lemma Redone.of_error {e : Abort} (hfs : again.fs = fs) (hfirst : first.result = .error e)
    (hagain : again.result = .error e) : Redone R fs first again where
  files := hfs
  abort := by
    intro e' he'
    rw [hfirst] at he'
    cases he'
    exact hagain
  result := by
    intro x hx
    rw [hfirst] at hx
    cases hx

lemma Redone.of_ok {x y : α} (hfs : again.fs = fs) (hfirst : first.result = .ok x)
    (hagain : again.result = .ok y) (hxy : R x y) : Redone R fs first again where
  files := hfs
  abort := by
    intro e he
    rw [hfirst] at he
    cases he
  result := by
    intro x' hx'
    rw [hfirst] at hx'
    cases hx'
    exact ⟨y, hagain, hxy⟩

end Done

lemma repeats_self {o : Outcome} (h : o.status ≠ .generated) : Repeats o o :=
  ⟨rfl, h, fun hstatus => hstatus.resolve_left h, fun hstatus => hstatus⟩

/-- An input whose place is taken is left alone. -/
lemma repeats_existing {target : Path} {o : Outcome} (h : o.input = input) (hstatus : o.status ≠ .createError) :
    Repeats o (concluded input target services .existing none) :=
  ⟨h.symm, by simp [concluded], fun _ => rfl, fun h => absurd h hstatus⟩

/-- An input that has failed once may fail again, for whatever reason. -/
lemma repeats_failure {target : Path} {status : Status} {error error' : Option String}
    (hgenerated : status ≠ .generated) (hexisting : status ≠ .existing) :
    Repeats (concluded input target services status error) (concluded input target services status error') :=
  ⟨rfl, hgenerated, fun h => (h.elim hgenerated hexisting).elim, fun h => h⟩

lemma ground_of_start (hlost : (fs.startOf a).lost = 0) : ground fs a ps n =
    if (fs.pave (fs.startOf a) ps).1 = false then .barred
    else if ((fs.pave (fs.startOf a) ps).2.get? (spot fs a ps n)).isSome then .held
    else .vacant := by
  have hend : ((fs.startOf a).along ps).lost = 0 := lost_along hlost
  simp only [ground, hend, ne_eq, not_true_eq_false, or_false]

section Ground

variable (h : fs.LinkFree) (hw : fs.WellFormed) (hps : Fit (ps ++ [n])) (hlost : (fs.startOf a).lost = 0)
variable (hkept : (fs.pave (fs.startOf a) ps).2.Extends fs')
include h hw hps hkept

lemma startOf_rerun : fs'.startOf a = fs.startOf a :=
  (hkept.startOf a).trans ((pave_keeps h hw (hw.firm_startOf a) hps.left).2.2.startOf a)

include hlost

/-- The way to the stub file is as it was left. -/
lemma pave_rerun : fs'.pave (fs'.startOf a) ps = ((fs.pave (fs.startOf a) ps).1, fs') := by
  rw [startOf_rerun h hw hps hkept]
  exact pave_again h hw (hw.firm_startOf a) hps.left hlost hkept.keeps

/-- Once the way is paved, only what stands in the place of the stub file matters. -/
lemma ground_rerun : ground fs' a ps n =
    if (fs.pave (fs.startOf a) ps).1 = false then .barred
    else if (fs'.get? (spot fs a ps n)).isSome then .held
    else .vacant := by
  have hstart := startOf_rerun h hw hps hkept
  have hspot : spot fs' a ps n = spot fs a ps n := by rw [spot, spot, hstart]
  rw [ground_of_start (hstart ▸ hlost), pave_rerun h hw hps hlost hkept, hspot]

end Ground

section Step

variable (h : fs.LinkFree) (hw : fs.WellFormed) (h' : fs'.LinkFree) (hw' : fs'.WellFormed)
variable (hps : Fit (ps ++ [n])) (hn : n ≠ "..") (hlost : (fs.startOf a).lost = 0)
variable (hkept : (writeServices fs input ⟨a, ps ++ [n]⟩ w services).fs.Extends fs')
include h hw h' hw' hps hlost hkept

/-- A path that no file system takes. -/
lemma writeServices_redone_of_error {e : FileError} (hq : admissible ⟨a, ps ++ [n]⟩ = .error e) :
    Redone Repeats fs' (writeServices fs input ⟨a, ps ++ [n]⟩ w services)
      (writeServices fs' input ⟨a, ps ++ [n]⟩ w services) := by
  cases e with
  | onPath fault q =>
    obtain ⟨-, hfirst⟩ := @writeServices_tooLong fs w input services _ q fault hq
    obtain ⟨hfs, hagain⟩ := @writeServices_tooLong fs' w input services _ q fault hq
    exact .of_error hfs hfirst hagain
  | nullCharacter =>
    cases hparent : admissible ⟨a, ps⟩ with
    | error e =>
      obtain ⟨-, hfirst⟩ := @writeServices_nullParent fs a ps n w input services hq e hparent
      obtain ⟨hfs, hagain⟩ := @writeServices_nullParent fs' a ps n w input services hq e hparent
      split_ifs at hfirst hagain
      · exact .of_error hfs hfirst hagain
      · exact .of_ok hfs hfirst hagain (repeats_failure (by simp) (by simp))
    | ok u =>
      obtain ⟨hfs, hend, hfail⟩ := @writeServices_null fs a ps n w input services hq h hw hparent hps.left
      obtain ⟨hfs', hend', hfail'⟩ := @writeServices_null fs' a ps n w input services hq h' hw' hparent hps.left
      rw [hfs] at hkept
      rw [pave_rerun h hw hps hlost hkept] at hfs' hend' hfail'
      cases hpave : (fs.pave (fs.startOf a) ps).1 with
      | true => exact .of_error hfs' (hend hpave) (hend' hpave)
      | false =>
        obtain ⟨fault, q, hfirst, -⟩ := hfail hpave
        obtain ⟨fault', q', hagain, -⟩ := hfail' hpave
        exact .of_ok hfs' hfirst hagain (repeats_failure (by simp) (by simp))

include hn

omit hkept in
/-- An input that finds something in the place of its stub file is left alone. -/
lemma redone_of_taken (hq : admissible ⟨a, ps ++ [n]⟩ = .ok ())
    (hpaved : (fs.pave (fs.startOf a) ps).2.Extends fs') (hdone : (fs.pave (fs.startOf a) ps).1 = true)
    {e : Entry} (he : fs'.get? (spot fs a ps n) = some e) {first : Done Outcome} {o : Outcome}
    (hfirst : first.result = .ok o) (hinput : o.input = input) (hstatus : o.status ≠ .createError) :
    Redone Repeats fs' first (writeServices fs' input ⟨a, ps ++ [n]⟩ w services) := by
  have hground := ground_rerun h hw hps hlost hpaved
  rw [if_neg (by simp [hdone]), if_pos (by simp [he])] at hground
  obtain ⟨hfs, hagain⟩ := @writeServices_held fs' a ps n w input services h' hw' hq hps hn hground
  rw [pave_rerun h hw hps hlost hpaved] at hfs
  exact .of_ok hfs hfirst hagain (repeats_existing hinput hstatus)

/-- Writing the services of an input again changes nothing. -/
theorem writeServices_redone (huntouching : w.Untouching) :
    Redone Repeats fs' (writeServices fs input ⟨a, ps ++ [n]⟩ w services)
      (writeServices fs' input ⟨a, ps ++ [n]⟩ w services) := by
  cases hq : admissible ⟨a, ps ++ [n]⟩ with
  | error e => exact writeServices_redone_of_error h hw h' hw' hps hlost hkept hq
  | ok u =>
    cases hground : ground fs a ps n with
    | barred =>
      obtain ⟨hfs, fault, q, hfirst, -⟩ := @writeServices_barred fs a ps n w input services h hw hq hps hn hground
      rw [hfs] at hkept
      have hdone : (fs.pave (fs.startOf a) ps).1 = false := by
        rw [ground_of_start hlost] at hground
        split_ifs at hground with hdone
        exact hdone
      have hground' := ground_rerun h hw hps hlost hkept
      rw [if_pos hdone] at hground'
      obtain ⟨hfs', fault', q', hagain, -⟩ :=
        @writeServices_barred fs' a ps n w input services h' hw' hq hps hn hground'
      rw [pave_rerun h hw hps hlost hkept] at hfs'
      exact .of_ok hfs' hfirst hagain (repeats_failure (by simp) (by simp))
    | held =>
      obtain ⟨hfs, hfirst⟩ := @writeServices_held fs a ps n w input services h hw hq hps hn hground
      obtain ⟨hdone, -, e, he⟩ := ground_eq_held.mp hground
      rw [hfs] at hkept
      exact redone_of_taken h hw h' hw' hps hn hlost hq hkept hdone (hkept.keeps _ e he) hfirst rfl
        (by simp [concluded])
    | vacant =>
      obtain ⟨hdone, -, hnone⟩ := ground_eq_vacant.mp hground
      cases hfailure : (w.emitAll (baseName input) (w.fileName (baseName input)) [] services).failure with
      | none =>
        obtain ⟨hfs, hfirst⟩ := writeServices_finished h hw hq hps hn huntouching hground hfailure
        rw [if_neg (not_not.mpr hlost)] at hfirst
        rw [hfs] at hkept
        have hstub := hkept.keeps (spot fs a ps n) _ (by rw [get?_set (by simp [spot]), if_pos rfl])
        have hpaved := (extends_set hnone _).trans hkept
        exact redone_of_taken h hw h' hw' hps hn hlost hq hpaved hdone hstub hfirst rfl (by simp [concluded])
      | some failure =>
        obtain ⟨hfs, hfirst⟩ := writeServices_failed h hw hq hps hn huntouching hground hfailure
        rw [hfs] at hkept
        cases hspot : fs'.get? (spot fs a ps n) with
        | some e => exact redone_of_taken h hw h' hw' hps hn hlost hq hkept hdone hspot hfirst rfl (by simp [concluded])
        | none =>
          -- The writer fails again, and the file is removed again.
          have hground' := ground_rerun h hw hps hlost hkept
          rw [if_neg (by simp [hdone]), if_neg (by simp [hspot])] at hground'
          obtain ⟨hfs', hagain⟩ := writeServices_failed h' hw' hq hps hn huntouching hground' hfailure
          rw [pave_rerun h hw hps hlost hkept] at hfs'
          exact .of_ok hfs' hfirst hagain (repeats_failure (by simp) (by simp))

end Step

section Input

variable (h : fs.LinkFree) (hw : fs.WellFormed) (h' : fs'.LinkFree) (hw' : fs'.WellFormed)
variable (huntouching : w.Untouching) (hlost : (fs.startOf out.anchor).lost = 0)
include h hw h' hw' huntouching hlost

/-- Processing an input again changes nothing. -/
theorem generateFile_redone (hlodged : Lodged root out w input d n)
    (hservices : servicesOf fs' input = servicesOf fs input)
    (hkept : (generateFile fs root out input w).fs.Extends fs') :
    Redone Repeats fs' (generateFile fs root out input w) (generateFile fs' root out input w) := by
  unfold generateFile at hkept ⊢
  rw [hservices]
  generalize servicesOf fs input = served at hkept ⊢
  rcases served with ⟨result, log⟩
  cases result with
  | error e =>
    cases e with
    | parse e => exact .of_ok rfl rfl rfl (repeats_self (by simp))
    | nullCharacter => exact .of_error rfl rfl rfl
    | invalid issues => exact .of_error rfl rfl rfl
  | ok services =>
    cases services with
    | nil => exact .of_ok rfl rfl rfl (repeats_self (by simp))
    | cons s ss =>
      simp only [hlodged.target] at hkept ⊢
      obtain ⟨hfiles, habort, hresult⟩ :=
        writeServices_redone h hw h' hw' hlodged.fit hlodged.name hlost hkept huntouching
      exact ⟨hfiles, habort, hresult⟩

/-- Processing inputs again, in a file system that has what the first run has left, changes nothing. -/
theorem generateEach_redone (hlodged : ∀ input ∈ inputs, ∃ d n, Lodged root out w input d n)
    (hfiles : ∀ input ∈ inputs, fs.isFile input = .ok true)
    (hkept : (generateEach none root out w fs inputs).fs.Extends fs') :
    Redone (List.Forall₂ Repeats) fs' (generateEach none root out w fs inputs)
      (generateEach none root out w fs' inputs) := by
  induction inputs generalizing fs with
  | nil => exact .of_ok rfl rfl rfl .nil
  | cons input inputs ih =>
    rw [List.forall_mem_cons] at hlodged hfiles
    obtain ⟨⟨d, n, hinput⟩, hothers⟩ := hlodged
    have hadds := extends_generateFile huntouching fs root out input
    -- Whatever the later inputs have added, the first one finds what it has left.
    have hleft : (generateFile fs root out input w).fs.Extends fs' := by
      cases hresult : (generateFile fs root out input w).result with
      | error e => rwa [(generateEach_of_error hresult inputs).1] at hkept
      | ok o =>
        rw [(generateEach_of_ok hresult inputs).1] at hkept
        exact (extends_generateEach huntouching _ root out inputs).trans hkept
    have hstep := generateFile_redone h hw h' hw' huntouching hlost hinput
      (servicesOf_of_extends (hadds.trans hleft) hfiles.1) hleft
    cases hresult : (generateFile fs root out input w).result with
    | error e =>
      obtain ⟨-, hfirst⟩ := generateEach_of_error hresult inputs
      obtain ⟨hfs', hagain⟩ := generateEach_of_error (hstep.abort e hresult) inputs
      exact .of_error (hfs'.trans hstep.files) hfirst hagain
    | ok o =>
      obtain ⟨hfs, hfirst⟩ := generateEach_of_ok hresult inputs
      obtain ⟨o', hresult', hrepeats⟩ := hstep.result o hresult
      obtain ⟨hfs', hagain⟩ := generateEach_of_ok hresult' inputs
      rw [hfs] at hkept
      rw [hstep.files] at hfs' hagain
      obtain ⟨hlinks, hwell⟩ := generateFile_keeps h hw hinput.target hinput.fit hinput.name huntouching
      have hmore := ih hlinks hwell (by rwa [hadds.startOf]) hothers (fun p hp => hadds.isFile (hfiles.2 p hp)) hkept
      cases hrest : (generateEach none root out w (generateFile fs root out input w).fs inputs).result with
      | error e =>
        rw [hrest] at hfirst
        rw [hmore.abort e hrest] at hagain
        exact .of_error (hfs'.trans hmore.files) hfirst hagain
      | ok os =>
        obtain ⟨os', hrest', hforall⟩ := hmore.result os hrest
        rw [hrest] at hfirst
        rw [hrest'] at hagain
        exact .of_ok (hfs'.trans hmore.files) hfirst hagain (.cons hrepeats hforall)

end Input

/-- If the input root and the output root lie apart, a second run finds the same inputs, changes nothing,
makes no stub file, and reports every stub file that the first one has made or found. -/
theorem generate_rerun {fs : FileSystem} {root out : Path} {recursive : Bool} {w : Writer}
    (hlinks : fs.LinkFree) (hwell : fs.WellFormed) (hroot : root.Proper) (hout : out.Proper)
    (hw : w.Untouching)
    (habove : ¬ fs.destination root <+: fs.destination out)
    (hbelow : ¬ fs.destination out <+: fs.destination root)
    (hnamed : ∀ inputs, (fs.discover root recursive).result = .ok inputs → ∀ input ∈ inputs,
      ∃ name, Path.ofString (w.fileName (baseName input)) = ⟨.here, [name]⟩ ∧ name ≠ "..")
    (hshort : ∀ inputs, (fs.discover root recursive).result = .ok inputs → ∀ input ∈ inputs,
      ∀ target, outputPath input root out w = .ok target → ∀ name ∈ target.parts, name.utf8ByteSize ≤ nameLimit)
    (hadrift : fs.isAdrift out = false)
    (hagain : ".." ∈ out.parts → ∀ inputs, (fs.discover root recursive).result = .ok inputs →
      ∃ found, ((generate none fs root out recursive w).fs.discover root recursive).result = .ok found) :
    let first := generate none fs root out recursive w
    let rerun := generate none first.fs root out recursive w
    rerun.fs = first.fs ∧ (∀ e, first.result = .error e → rerun.result = .error e) ∧
      ∀ report, first.result = .ok report →
        ∃ report', rerun.result = .ok report' ∧ List.Forall₂ Repeats report.outcomes report'.outcomes := by
  intro first rerun
  cases hfound : (fs.discover root recursive).result with
  | error e =>
    have hfs : first.fs = fs := generate_of_undiscovered hfound
    have hsame : rerun = first := by simp only [rerun, hfs, first]
    rw [hsame]
    refine ⟨rfl, fun e he => he, fun report hreport => ?_⟩
    obtain ⟨inputs, hinputs, -⟩ := generate_eq_ok hreport
    rw [hfound] at hinputs
    cases hinputs
  | ok inputs =>
    have hlost : (fs.startOf out.anchor).lost = 0 := by simpa [isAdrift] using hadrift
    have hlodged : ∀ input ∈ inputs, ∃ d n, Lodged root out w input d n := by
      intro input hinput
      obtain ⟨name, hname, hup⟩ := hnamed inputs hfound input hinput
      obtain ⟨d, hlodged⟩ := exists_lodged hout (below_discover hlinks hwell root inputs hfound input hinput)
        hname hup (hshort inputs hfound input hinput)
      exact ⟨d, name, hlodged⟩
    obtain ⟨hfs, hresult⟩ := @generate_of_discover fs root out w inputs recursive hfound
    obtain ⟨hlinks', hwell', hadds⟩ := addsStubs_generateEach hlinks hwell hw hlodged
    rw [hfs] at hagain
    have hfound' := hadds.discover hlinks hwell hlinks' hwell' hroot habove hbelow hfound
      fun hdots => hagain hdots inputs hfound
    have hredone := generateEach_redone hlinks hwell hlinks' hwell' hw hlost hlodged
      (all_discover root inputs hfound) (.refl _)
    obtain ⟨hfs', hresult'⟩ := @generate_of_discover _ root out w inputs recursive hfound'
    have hrerun : rerun = generate none (generateEach none root out w fs inputs).fs root out recursive w := by
      simp only [rerun, first, hfs]
    rw [hrerun, show first.fs = _ from hfs, hfs', show first.result = _ from hresult, hresult']
    refine ⟨hredone.files, fun e he => ?_, fun report hreport => ?_⟩
    · rw [hredone.abort e (error_of_map_eq he)]
      rfl
    · obtain ⟨outcomes, houtcomes, rfl⟩ := exists_of_map_eq_ok hreport
      obtain ⟨outcomes', houtcomes', hforall⟩ := hredone.result outcomes houtcomes
      rw [houtcomes']
      exact ⟨⟨outcomes'⟩, rfl, hforall⟩

/-- Two inputs with one stub file, and a third whose stub file would lie below it. -/
def meetingInputs : FileSystem where
  entries := [(["in"], .folder),
    (["in", "a.proto"], .file (Text.encode "service S\x7b\x7d".toList)),
    (["in", "a.stub"], .folder),
    (["in", "a.stub", "b.proto"], .file (Text.encode "service T\x7b\x7d".toList)),
    (["in", "a.txt"], .file (Text.encode "service U\x7b\x7d".toList))]
  here := []

lemma meetingInputs_found : (meetingInputs.discover (.ofString "in") true).result =
    .ok [.ofString "in/a.proto", .ofString "in/a.stub/b.proto", .ofString "in/a.txt"] := by
  have hlinks : meetingInputs.LinkFree := by decide
  have hin : meetingInputs.list (.ofString "in") = .ok ["a.proto", "a.stub", "a.txt"] :=
    hlinks.list_of_names ["in"] (by decide) (by decide) (by decide) (by cbv)
  let sub : Path := (Path.ofString "in").child "a.stub"
  have hsub : meetingInputs.list sub = .ok ["b.proto"] :=
    hlinks.list_of_names ["in", "a.stub"] (by decide) (by decide) (by decide) (by cbv)
  have hpaths : [Path.ofString "in/a.proto", Path.ofString "in/a.stub/b.proto", Path.ofString "in/a.txt"] =
      [(Path.ofString "in").child "a.proto", sub.child "b.proto", (Path.ofString "in").child "a.txt"] := by
    decide
  rw [hpaths, discover_of_folder (by decide), discoverAs_eq_ok]
  refine ⟨(hlinks.realPath (by decide)).2 (by decide), ?_⟩
  rw [show pathLimit = 4094 + 1 + 1 from rfl, filesIn_succ hin]
  have hfolder : meetingInputs.stat sub = .ok .folder := by decide
  have hbelow : (meetingInputs.filesIn true (4094 + 1) sub).result = .ok [sub.child "b.proto"] := by
    rw [filesIn_succ hsub]
    exact candidates_of_file (by decide) rfl
  exact candidates_of_file (by decide)
    (candidates_of_folder hfolder hbelow (candidates_of_file (by decide) rfl))

theorem meetingInputs_rerun :
    let first := generate none meetingInputs (.ofString "in") (.ofString "o") true (Recorder.writer {})
    let rerun := generate none first.fs (.ofString "in") (.ofString "o") true (Recorder.writer {})
    (first.fs.get? ["o", "a.stub"]).isSome = true ∧ rerun.fs = first.fs ∧
    ∃ report report', first.result = .ok report ∧ rerun.result = .ok report' ∧
      report.outcomes.map Outcome.status = [.generated, .createError, .existing] ∧
      List.Forall₂ Repeats report.outcomes report'.outcomes := by
  intro first rerun
  obtain ⟨hstub, hstatus⟩ : (first.fs.get? ["o", "a.stub"]).isSome = true ∧
      (first.result.map fun report => report.outcomes.map Outcome.status) =
        .ok [.generated, .createError, .existing] := by
    simp only [first, generate_of_discover meetingInputs_found]
    decide +kernel
  obtain ⟨hfs, -, hrerun⟩ := @generate_rerun meetingInputs (.ofString "in") (.ofString "o") true
    (Recorder.writer {}) (by decide +kernel) (by decide +kernel) (Path.proper_ofString "in")
    (Path.proper_ofString "o") (Recorder.writer_untouching {}) (by decide +kernel) (by decide +kernel)
    (fun inputs hfound => by
      cases meetingInputs_found.symm.trans hfound
      decide +kernel)
    (fun inputs hfound => by
      cases meetingInputs_found.symm.trans hfound
      decide +kernel)
    (by decide +kernel) (fun hdots => absurd hdots (by decide +kernel))
  obtain ⟨report, hreport, hstatus⟩ := exists_of_map_eq_ok hstatus
  obtain ⟨report', hreport', hrepeats⟩ := hrerun report hreport
  exact ⟨hstub, hfs, report, report', hreport, hreport', hstatus.symm, hrepeats⟩

/-- The two inputs and the stub file of the first, seen from a folder that has been removed. -/
def strandedStub : FileSystem :=
  (strandedInputs.set ["o"] .folder).set ["o", "a.stub"] (.file (Text.encode "S:\n".toList))

lemma strandedStub_found : (strandedStub.discover (.ofString "/in") false).result =
    .ok [.ofString "/in/a.proto", .ofString "/in/b.proto"] := by
  have hlinks : strandedStub.LinkFree := by decide
  exact hlinks.discover_of_files ["in"] ["a.proto", "b.proto"] (by decide) (by cbv) (by decide)

/-- The output root is named from a removed folder, so a run ends at the first stub file it finishes: the
first run at that of the first input, and the second run, which passes over it, at that of the second. -/
theorem strandedInputs_rerun_adds :
    let first := generate none strandedInputs (.ofString "/in") (.ofString "../o") false (Recorder.writer {})
    let rerun := generate none first.fs (.ofString "/in") (.ofString "../o") false (Recorder.writer {})
    strandedInputs.LinkFree ∧ strandedInputs.WellFormed ∧ (Recorder.writer {}).Untouching ∧
    ¬ strandedInputs.destination (.ofString "/in") <+: strandedInputs.destination (.ofString "../o") ∧
    ¬ strandedInputs.destination (.ofString "../o") <+: strandedInputs.destination (.ofString "/in") ∧
    (strandedInputs.discover (.ofString "/in") false).result =
      .ok [.ofString "/in/a.proto", .ofString "/in/b.proto"] ∧
    Separated (.ofString "/in") (.ofString "../o") (Recorder.writer {})
      [.ofString "/in/a.proto", .ofString "/in/b.proto"] ∧
    first.fs.get? ["o", "b.stub"] = none ∧ (rerun.fs.get? ["o", "b.stub"]).isSome = true := by
  intro first rerun
  have hfirst : first.fs = strandedStub := by
    simp only [first, (generate_of_discover strandedInputs_found).1]
    decide +kernel
  refine ⟨by decide +kernel, by decide +kernel, Recorder.writer_untouching {}, by decide +kernel,
    by decide +kernel, strandedInputs_found, by decide +kernel, ?_, ?_⟩
  · rw [hfirst]
    decide +kernel
  · simp only [rerun, hfirst, (generate_of_discover strandedStub_found).1]
    decide +kernel

/-- The first run finishes the stub file and makes, in the input root, a folder that the output root passes
through. The rerun fails before it comes to any input, since the search is refused that folder. -/
theorem windingInput_rerun_fails :
    let first := generate none windingInput windingRoot passingOut false (Recorder.writer {})
    let rerun := generate none first.fs windingRoot passingOut false (Recorder.writer {})
    (Recorder.writer {}).Untouching ∧
    (windingInput.LinkFree ∧ windingInput.WellFormed ∧ windingRoot.Proper ∧ passingOut.Proper ∧
      ¬ windingInput.destination windingRoot <+: windingInput.destination passingOut ∧
      ¬ windingInput.destination passingOut <+: windingInput.destination windingRoot ∧
      windingInput.isAdrift passingOut = false) ∧
    (windingInput.discover windingRoot false).result = .ok [windingRoot.child "a.proto"] ∧
    Separated windingRoot passingOut (Recorder.writer {}) [windingRoot.child "a.proto"] ∧
    (first.result.map fun report => report.outcomes.map Outcome.status) = .ok [.generated] ∧
    ∃ e, rerun.result = .error e := by
  dsimp only
  obtain ⟨-, hfirst, hstatus⟩ := windingInput_runs
  obtain ⟨e, he⟩ := @winding_refused windingStub (by simp)
  refine ⟨Recorder.writer_untouching {}, windingInput_clear, windingInput_found, windingInput_separated, hstatus, ?_⟩
  rw [hfirst]
  cases hrerun : (generate none windingStub windingRoot passingOut false (Recorder.writer {})).result with
  | error e => exact ⟨e, rfl⟩
  | ok report =>
    obtain ⟨inputs, hinputs, -⟩ := generate_eq_ok hrerun
    rw [he] at hinputs
    cases hinputs

end Stubsmith.Generation
