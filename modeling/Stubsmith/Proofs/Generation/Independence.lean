import Mathlib.Data.List.Permutation
import Stubsmith.Proofs.Generation.Separation
import Stubsmith.Writer.Recorder

/-!
# Inputs do not depend on each other

If no stub file lies at or below another, a run over a folder is the sum of runs over its inputs: every
input has the outcome that it has alone, and the files in the end are those in the beginning with what
each input alone adds. So other contents in one input change neither the outcome of another nor what is
added for it.

One thing can differ from the runs alone. Where the path to the output root goes through a folder that is
missing, and up from it again, the first input that needs the folder makes it. An input that cannot have
a stub file for another reason is then told so in other words.
-/
namespace Stubsmith.Generation

open Files (Path FileSystem Location Entry)
open Files.FileSystem
open Text (Bytes)

variable {fs : FileSystem} {root out input : Path} {w : Writer} {inputs : List Path} {loc : Location}
variable {old new : Bytes} {recursive : Bool}

lemma startOf_set {a : Files.Anchor} {e : Entry} : (fs.set loc e).startOf a = fs.startOf a := by
  cases a with
  | here => rfl
  | root => rfl
  | twinRoot => rfl

section Contents

variable (hold : fs.get? loc = some (.file old))
include hold

lemma ne_root_of_file : loc ≠ [] := by
  rintro rfl
  cases hold

lemma outline_set_file (l : Location) : (fs.set loc (.file new)).outline l = fs.outline l := by
  unfold outline
  rw [get?_set (ne_root_of_file hold)]
  split_ifs with hl
  · rw [hl, hold]
    rfl
  · rfl

lemma wellFormed_set_file (hw : fs.WellFormed) : (fs.set loc (.file new)).WellFormed := by
  rcases List.eq_nil_or_concat loc with rfl | ⟨l, name, rfl⟩
  · exact absurd rfl (ne_root_of_file hold)
  · rw [List.concat_eq_append] at hold ⊢
    exact hw.set (hw.folder_of_child hold) (hw.plain_of_child hold) (by simp [hold]) _

/-- An input has the same services if the contents of another file are replaced. -/
lemma servicesOf_set_file (h : fs.LinkFree) (hinput : input.Proper) (hfile : fs.isFile input = .ok true)
    (hne : fs.destination input ≠ loc) : servicesOf (fs.set loc (.file new)) input = servicesOf fs input := by
  have hlinks : (fs.set loc (.file new)).LinkFree := h.set (by simp)
  obtain ⟨bytes, hstat⟩ := isFile_eq_true.mp hfile
  obtain ⟨hq, r, hr, hentry⟩ := stat_eq_ok.mp hstat
  rw [h.resolveNames_eq] at hr
  have hend := along_of_pass hinput hr
  have hread : (fs.set loc (.file new)).readFile input = fs.readFile input := by
    rw [readFile_of_file hstat]
    refine readFile_of_file (stat_eq_ok.mpr ⟨hq, r, ?_, ?_⟩)
    · rw [hlinks.resolveNames_eq]
      exact pass_of_outline (outline_set_file hold) hr
    · unfold entryAt? at hentry ⊢
      split_ifs at hentry ⊢
      · rw [get?_set (ne_root_of_file hold), if_neg]
        · exact hentry
        · rw [hend]
          exact hne
      · exact hentry
  unfold servicesOf parseFile
  rw [hread]

/-- What matters to a stub file is not what is in a file. -/
lemma interchangeable_set_file {a : Files.Anchor} {ps : List String} {n : String} :
    Interchangeable fs (fs.set loc (.file new)) a ps n where
  start := startOf_set
  blocked := by
    intro l _
    unfold FileSystem.blocked
    rw [get?_set (ne_root_of_file hold)]
    split_ifs with hl
    · rw [hl, hold]
    · rfl
  held := fun _ => isSome_of_outline (outline_set_file hold) _

end Contents

/-- Each input has an outcome, alone. -/
lemma verdicts_getElem {outcomes : List Outcome} (h : verdicts fs root out w inputs = .ok outcomes) {k : Nat}
    (hk : inputs[k]? = some input) :
    ∃ o, outcomes[k]? = some o ∧ (generateFile fs root out input w).result = .ok o := by
  induction inputs generalizing outcomes k with
  | nil => cases hk
  | cons first inputs ih =>
    rw [verdicts_cons] at h
    cases hfirst : (generateFile fs root out first w).result with
    | error e =>
      rw [hfirst] at h
      cases h
    | ok o =>
      rw [hfirst] at h
      obtain ⟨others, hothers, rfl⟩ := exists_of_map_eq_ok h
      cases k with
      | zero =>
        cases hk
        exact ⟨o, rfl, hfirst⟩
      | succ k => exact ih hothers hk

/-- A run that is not aborted comes to every input. -/
lemma reached_of_verdicts {outcomes : List Outcome} (h : verdicts fs root out w inputs = .ok outcomes) :
    reached fs root out w inputs = inputs := by
  induction inputs generalizing outcomes with
  | nil => rfl
  | cons first inputs ih =>
    rw [verdicts_cons] at h
    cases hfirst : (generateFile fs root out first w).result with
    | error e =>
      rw [hfirst] at h
      cases h
    | ok o =>
      rw [hfirst] at h
      obtain ⟨others, hothers, -⟩ := exists_of_map_eq_ok h
      rw [reached_cons, hfirst]
      exact congrArg _ (ih hothers)

/-- Processing an input comes to the same outcome in both file systems, except for the words in which a
fault is put, and adds the same entries. -/
structure Unaffected (fs fs' : FileSystem) (root out : Path) (w : Writer) (input : Path) : Prop where
  alike : (generateFile fs' root out input w).result.map Outcome.blurred =
    (generateFile fs root out input w).result.map Outcome.blurred
  exact : ".." ∉ out.parts →
    (generateFile fs' root out input w).result = (generateFile fs root out input w).result
  files : ∀ l, fs'.get? l = fs.get? l →
    (generateFile fs' root out input w).fs.get? l = (generateFile fs root out input w).fs.get? l

lemma unaffected_set_file (h : fs.LinkFree) (hw : fs.WellFormed) (huntouching : w.Untouching)
    (hold : fs.get? loc = some (.file old)) {d : List String} {n : String}
    (hlodged : Lodged root out w input d n) (hinput : input.Proper) (hfile : fs.isFile input = .ok true)
    (hne : fs.destination input ≠ loc) : Unaffected fs (fs.set loc (.file new)) root out w input := by
  have hpar := generateFile_parallel h hw hlodged.target hlodged.fit hlodged.name huntouching
    (h.set (by simp) : (fs.set loc (.file new)).LinkFree) (wellFormed_set_file hold hw)
    (interchangeable_set_file hold) (servicesOf_set_file hold h hinput hfile hne)
  refine ⟨hpar.alike, fun hdots => hpar.exact fun hmem => ?_, fun l hl => ?_⟩
  · exact (List.mem_append.mp hmem).elim hdots hlodged.down
  · obtain ⟨add, -, hfiles, hfiles'⟩ := hpar.files
    rw [hfiles, hfiles', hl]

/-- In a sum, every input has the outcome that it has alone. -/
lemma SumRun.outcome {before : List Path} {run : Done (List Outcome)} {outcomes : List Outcome}
    (h : SumRun fs root out w before inputs run) (hresult : run.result = .ok outcomes) {k : Nat}
    (hk : inputs[k]? = some input) :
    ∃ o alone, outcomes[k]? = some o ∧ (generateFile fs root out input w).result = .ok alone ∧
      o.blurred = alone.blurred ∧ (".." ∉ out.parts → o = alone) := by
  have halike := h.alike
  rw [hresult] at halike
  obtain ⟨verdict, hverdict, hlists⟩ := exists_of_map_eq_ok halike.symm
  obtain ⟨alone, halone, hinput⟩ := verdicts_getElem hverdict hk
  have hat := congrArg (·[k]?) hlists
  simp only [List.getElem?_map, halone, Option.map_some] at hat
  obtain ⟨o, ho, hblurred⟩ := Option.map_eq_some_iff.mp hat
  refine ⟨o, alone, ho, hinput, hblurred, fun hdots => ?_⟩
  have hexact := h.exact hdots
  rw [hresult, hverdict, Except.ok.injEq] at hexact
  rw [hexact, halone, Option.some.injEq] at ho
  exact ho.symm

/-- A run over inputs whose stub files do not meet is the sum of the runs over each of them, and what is in
one input does not matter to the others. -/
theorem generate_independent {fs : FileSystem} {root out : Path} {recursive : Bool} {w : Writer}
    {inputs : List Path} (hlinks : fs.LinkFree) (hwell : fs.WellFormed) (hroot : root.Proper)
    (hout : out.Proper) (hw : w.Untouching) (hfound : (fs.discover root recursive).result = .ok inputs)
    (hsep : Separated root out w inputs) :
    ((generate none fs root out recursive w).result.map fun report => report.outcomes.map Outcome.blurred) =
        (verdicts fs root out w inputs).map (List.map Outcome.blurred) ∧
      (".." ∉ out.parts → (generate none fs root out recursive w).result.map Report.outcomes =
        verdicts fs root out w inputs) ∧
      IsSum fs (leftovers fs root out w (reached fs root out w inputs))
        (generate none fs root out recursive w).fs ∧
      (∀ report, (generate none fs root out recursive w).result = .ok report →
        reached fs root out w inputs = inputs) ∧
      ∀ loc old new, fs.get? loc = some (.file old) →
        ((fs.set loc (.file new)).discover root recursive).result = .ok inputs ∧
          ∀ (k : Nat) (input : Path), inputs[k]? = some input → fs.destination input ≠ loc →
            Unaffected fs (fs.set loc (.file new)) root out w input ∧
              ∀ report report', (generate none fs root out recursive w).result = .ok report →
                (generate none (fs.set loc (.file new)) root out recursive w).result = .ok report' →
                report'.outcomes[k]?.map Outcome.blurred = report.outcomes[k]?.map Outcome.blurred ∧
                  (".." ∉ out.parts → report'.outcomes[k]? = report.outcomes[k]?) := by
  have hrun := sumRun_of_discover hlinks hwell hw hout hfound hsep
  obtain ⟨hfs, hresult⟩ := @generate_of_discover fs root out w inputs recursive hfound
  refine ⟨?_, fun hdots => ?_, ?_, fun report hreport => ?_, fun loc old new hold => ?_⟩
  · rw [hresult, ← hrun.alike]
    cases (generateEach none root out w fs inputs).result with
    | error e => rfl
    | ok outcomes => rfl
  · rw [hresult, ← hrun.exact hdots]
    cases (generateEach none root out w fs inputs).result with
    | error e => rfl
    | ok outcomes => rfl
  · rw [hfs]
    exact hrun.files
  · rw [hresult] at hreport
    obtain ⟨outcomes, houtcomes, -⟩ := exists_of_map_eq_ok hreport
    have halike := hrun.alike
    rw [houtcomes] at halike
    obtain ⟨verdict, hverdict, -⟩ := exists_of_map_eq_ok halike.symm
    exact reached_of_verdicts hverdict
  · have hlinks' : (fs.set loc (.file new)).LinkFree := hlinks.set (by simp)
    have hwell' : (fs.set loc (.file new)).WellFormed := wellFormed_set_file hold hwell
    have hfound' := discover_of_outline (outline_set_file hold) hlinks hwell hlinks' hwell' startOf_set hroot
      hfound
    have hrun' := sumRun_of_discover hlinks' hwell' hw hout hfound' hsep
    refine ⟨hfound', fun k input hk hne => ?_⟩
    have hinput := List.mem_of_getElem? hk
    have hbelow := below_discover hlinks hwell root inputs hfound input hinput
    obtain ⟨d, n, hlodged⟩ := hsep.lodged hout hinput hbelow
    have hsame : Unaffected fs (fs.set loc (.file new)) root out w input :=
      unaffected_set_file hlinks hwell hw hold hlodged (hroot.of_below hbelow)
        (all_discover root inputs hfound input hinput) hne
    refine ⟨hsame, fun report report' hreport hreport' => ?_⟩
    -- Both runs are sums, so their outcomes are those of the input alone.
    rw [hresult] at hreport
    rw [(generate_of_discover hfound').2] at hreport'
    obtain ⟨outcomes, houtcomes, rfl⟩ := exists_of_map_eq_ok hreport
    obtain ⟨outcomes', houtcomes', rfl⟩ := exists_of_map_eq_ok hreport'
    obtain ⟨o, alone, ho, halone, hblurred, hexact⟩ := hrun.outcome houtcomes hk
    obtain ⟨o', alone', ho', halone', hblurred', hexact'⟩ := hrun'.outcome houtcomes' hk
    have halike := hsame.alike
    have heq := hsame.exact
    rw [halone, halone'] at halike heq
    simp only [Except.map, Except.ok.injEq] at halike heq
    rw [ho, ho']
    refine ⟨?_, fun hdots => ?_⟩
    · rw [Option.map_some, Option.map_some, hblurred, hblurred', halike]
    · rw [hexact hdots, hexact' hdots, heq hdots]

/-- A proto file, another one in a folder below, and a file beside the input root. -/
def nestedInputs : FileSystem where
  entries := [(["in"], .folder),
    (["in", "a.proto"], .file (Text.encode "service S\x7b\x7d".toList)),
    (["in", "sub"], .folder),
    (["in", "sub", "b.proto"], .file (Text.encode "service S\x7b\x7d".toList)),
    (["file"], .file (Text.encode ['x']))]
  here := []

lemma nestedInputs_found : (nestedInputs.discover (.ofString "in") true).result =
    .ok [.ofString "in/a.proto", .ofString "in/sub/b.proto"] := by
  have hlinks : nestedInputs.LinkFree := by decide
  have hin : nestedInputs.list (.ofString "in") = .ok ["a.proto", "sub"] :=
    hlinks.list_of_names ["in"] (by decide) (by decide) (by decide) (by cbv)
  let sub : Path := (Path.ofString "in").child "sub"
  have hsub : nestedInputs.list sub = .ok ["b.proto"] :=
    hlinks.list_of_names ["in", "sub"] (by decide) (by decide) (by decide) (by cbv)
  have hpaths : [Path.ofString "in/a.proto", Path.ofString "in/sub/b.proto"] =
      [(Path.ofString "in").child "a.proto", sub.child "b.proto"] := by decide
  rw [hpaths, discover_of_folder (by decide), discoverAs_eq_ok]
  refine ⟨(hlinks.realPath (by decide)).2 (by decide), ?_⟩
  rw [show pathLimit = 4094 + 1 + 1 from rfl, filesIn_succ hin]
  have hfolder : nestedInputs.stat sub = .ok .folder := by decide
  have hbelow : (nestedInputs.filesIn true (4094 + 1) sub).result = .ok [sub.child "b.proto"] := by
    rw [filesIn_succ hsub]
    exact candidates_of_file (by decide) rfl
  exact candidates_of_file (by decide) (candidates_of_folder hfolder hbelow rfl)

theorem nestedInputs_independent :
    (generate none nestedInputs (.ofString "in") (.ofString "o") true (Recorder.writer {})).result.map
        Report.outcomes =
      verdicts nestedInputs (.ofString "in") (.ofString "o") (Recorder.writer {})
        [.ofString "in/a.proto", .ofString "in/sub/b.proto"] ∧
    ((generateFile nestedInputs (.ofString "in") (.ofString "o") (.ofString "in/sub/b.proto")
        (Recorder.writer {})).fs.get? ["o", "sub", "b.stub"]).isSome = true ∧
    (generate none nestedInputs (.ofString "in") (.ofString "o") true (Recorder.writer {})).fs.get?
        ["o", "sub", "b.stub"] =
      (generateFile nestedInputs (.ofString "in") (.ofString "o") (.ofString "in/sub/b.proto")
        (Recorder.writer {})).fs.get? ["o", "sub", "b.stub"] ∧
    Unaffected nestedInputs (nestedInputs.set ["in", "a.proto"] (.file [])) (.ofString "in") (.ofString "o")
      (Recorder.writer {}) (.ofString "in/sub/b.proto") := by
  have hmade : ((generateFile nestedInputs (.ofString "in") (.ofString "o") (.ofString "in/sub/b.proto")
      (Recorder.writer {})).fs.get? ["o", "sub", "b.stub"]).isSome = true := by decide +kernel
  obtain ⟨-, hexact, hsum, -, hcontents⟩ := generate_independent (by decide +kernel) (by decide +kernel)
    (Path.proper_ofString "in") (Path.proper_ofString "o") (Recorder.writer_untouching {}) nestedInputs_found
    (by decide +kernel)
  refine ⟨hexact (by decide +kernel), hmade, ?_, ?_⟩
  · obtain ⟨e, he⟩ := Option.isSome_iff_exists.mp hmade
    rw [he]
    refine (hsum.entries _ e).mpr (Or.inr ⟨_, List.mem_map.mpr ⟨.ofString "in/sub/b.proto", ?_, rfl⟩, he⟩)
    decide +kernel
  · exact ((hcontents ["in", "a.proto"] _ [] rfl).2 1 (.ofString "in/sub/b.proto") rfl (by decide +kernel)).1

/-- The output root leads through a missing folder to a file. The first input makes the folder, so the
second one is told that the file is no folder; alone it would be told that the file exists. -/
theorem nestedInputs_fault_differs :
    nestedInputs.LinkFree ∧ nestedInputs.WellFormed ∧ (Recorder.writer {}).Untouching ∧
    (nestedInputs.discover (.ofString "in") true).result =
      .ok [.ofString "in/a.proto", .ofString "in/sub/b.proto"] ∧
    Separated (.ofString "in") (.ofString "new/../file") (Recorder.writer {})
      [.ofString "in/a.proto", .ofString "in/sub/b.proto"] ∧
    ((generate none nestedInputs (.ofString "in") (.ofString "new/../file") true
        (Recorder.writer {})).result.map fun report => report.outcomes.map Outcome.error) =
      .ok [some "[Errno 17] File exists: 'new/../file'",
        some "[Errno 20] Not a directory: 'new/../file/sub'"] ∧
    ((verdicts nestedInputs (.ofString "in") (.ofString "new/../file") (Recorder.writer {})
        [.ofString "in/a.proto", .ofString "in/sub/b.proto"]).map fun outcomes =>
          outcomes.map Outcome.error) =
      .ok [some "[Errno 17] File exists: 'new/../file'", some "[Errno 17] File exists: 'new/../file'"] := by
  refine ⟨by decide +kernel, by decide +kernel, Recorder.writer_untouching {}, nestedInputs_found,
    by decide +kernel, ?_, by decide +kernel⟩
  rw [(generate_of_discover nestedInputs_found).2]
  decide +kernel

end Stubsmith.Generation
