import Stubsmith.Proofs.Files.Faults
import Stubsmith.Proofs.Generation.Independence
import Stubsmith.Proofs.Generation.Mirroring
import Stubsmith.Proofs.Service.Declaration
import Stubsmith.Writer.Recorder

/-!
# What ends a run

Whatever is wrong with an input becomes its outcome: a run that is not ended has one outcome for each
input, in the order in which the inputs were found. What ends a run is the path of a stub file. It may be
too long to be looked up, it may hold a null character, and the file may be written where no real path
can be told. If no name and no path is too long, there is no null character, and the working folder has
not been removed, then every run has its report.
-/
namespace Stubsmith.Generation

open Files (Path FileSystem FileError RealError Location Anchor Below)
open Files.FileSystem
open Text (Bytes)

variable {fs made : FileSystem} {root out input target : Path} {w : Writer} {services : List Service}
variable {inputs : List Path} {outcomes : List Outcome} {loc : Location} {bytes : Bytes}
variable {a : Anchor} {ps : List String} {n : String}

/-- What ends a run at the stub file of an input with these services. -/
inductive Stops (fs : FileSystem) (w : Writer) (input target : Path) (services : List Service) : Prop
  /-- Whether the stub file exists cannot be told. -/
  | tooLong (h : fs.stat target = .error (.onPath .nameTooLong target))
  /-- The stub file would lie in a folder with a null character in its path. -/
  | nullFolder (h : '\x00' ∈ target.parent.text.toList)
  /-- The stub file has a null character in its name, and its folder is there. -/
  | nullName (h : '\x00' ∈ target.text.toList) (hfolder : (fs.ensureFolder target.parent).1 = .ok ())
  /-- The stub file is written, and then its real path cannot be told. -/
  | unreal {loc : Location} {opened : FileSystem} {bytes : Bytes} {e : RealError}
      (hexists : fs.exists? target = .ok false) (hopened : openOutput fs target = (.ok (some loc), opened))
      (hemits : w.Emits (baseName input) [] services bytes)
      (hreal : (opened.set loc (.file bytes)).realPath target = .error e)

/-- The input has services, and its stub file ends the run. -/
def Astray (fs : FileSystem) (root out : Path) (w : Writer) (input : Path) : Prop :=
  ∃ services target, (servicesOf fs input).1 = .ok services ∧ services ≠ [] ∧
    outputPath input root out w = .ok target ∧ Stops fs w input target services

lemma null_of_parent (h : '\x00' ∈ target.parent.text.toList) : '\x00' ∈ target.text.toList := by
  obtain ⟨a, parts⟩ := target
  obtain ⟨last, hparts⟩ := List.dropLast_prefix parts
  have hnull : '\x00' ∈ (Path.text ⟨a, parts.dropLast ++ last⟩).toList := null_mem_append h
  rwa [hparts] at hnull

lemma openOutput_eq_null : (openOutput fs target).1 = .error .nullCharacter ↔
    '\x00' ∈ target.parent.text.toList ∨
      '\x00' ∈ target.text.toList ∧ (fs.ensureFolder target.parent).1 = .ok () := by
  have hparent := @ensureFolder_eq_null fs target.parent.anchor target.parent.parts
  unfold openOutput
  rcases hmade : fs.ensureFolder target.parent with ⟨result, made⟩
  rw [hmade] at hparent
  cases result with
  | error e => simpa using hparent
  | ok u =>
    have hnull : '\x00' ∉ target.parent.text.toList := fun h => by cases hparent.mpr h
    rw [← @createFile_eq_null made target]
    dsimp only
    cases hcreate : made.createFile target with
    | ok r => simp [hnull]
    | error e =>
      cases e with
      | nullCharacter => simp
      | onPath fault q => cases fault <;> simp [hnull]

/-- Once its stub file is written, an input is generated if the real path of the file can be told. -/
lemma fill_result (hv : made.vacancy target = .ok loc) (hw : w.Untouching)
    (he : w.Emits (baseName input) [] services bytes) :
    (fill (made.set loc (.file [])) input target loc w services).result =
      match (made.set loc (.file bytes)).realPath target with
      | .error e => .error (.real e)
      | .ok _ => .ok (concluded input target services .generated none) := by
  obtain ⟨hfailure, happended⟩ := Writer.emits_iff.mp he
  have hloc := FileSystem.ne_root_of_vacant (FileSystem.get?_vacancy hv)
  unfold fill
  simp only [hw.emitAll, hfailure, happended, Bool.false_eq_true, if_false, FileSystem.append_set hloc,
    List.nil_append]
  cases (made.set loc (.file bytes)).realPath target with
  | error e => rfl
  | ok real => rfl

lemma writeServices_nullCharacter (h : (openOutput fs target).1 = .error .nullCharacter) :
    (writeServices fs input target w services).result = .error (.file .nullCharacter) := by
  have hnull : '\x00' ∈ target.text.toList := by
    rcases openOutput_eq_null.mp h with h | h
    · exact null_of_parent h
    · exact h.1
  rcases hopened : openOutput fs target with ⟨result, opened⟩
  rw [hopened] at h
  cases h
  simp [writeServices, exists_of_null hnull, hopened]

/-- Writing the services of an input ends the run in these cases and in no other. -/
lemma writeServices_eq_error (hw : w.Untouching) :
    (∃ e, (writeServices fs input target w services).result = .error e) ↔ Stops fs w input target services := by
  constructor
  · rintro ⟨e, h⟩
    unfold writeServices at h
    cases hexists : fs.exists? target with
    | error err => exact .tooLong (exists_eq_error.mp hexists).2
    | ok found =>
      cases found with
      | true => simp [hexists] at h
      | false =>
        rcases hopened : openOutput fs target with ⟨result, opened⟩
        cases result with
        | error err =>
          cases err with
          | onPath fault q => simp [hexists, hopened] at h
          | nullCharacter =>
            rcases openOutput_eq_null.mp (congrArg Prod.fst hopened) with hnull | ⟨hnull, hfolder⟩
            · exact .nullFolder hnull
            · exact .nullName hnull hfolder
        | ok place =>
          cases place with
          | none => simp [hexists, hopened] at h
          | some loc =>
            simp only [hexists, hopened] at h
            obtain ⟨made, -, hv, rfl⟩ := openOutput_eq_some hopened
            by_cases hemits : ∃ bytes, w.Emits (baseName input) [] services bytes
            · obtain ⟨bytes, hemits⟩ := hemits
              rw [fill_result hv hw hemits] at h
              cases hreal : (made.set loc (.file bytes)).realPath target with
              | ok real => simp [hreal] at h
              | error err => exact .unreal hexists hopened hemits (by rwa [set_set])
            · obtain ⟨-, o, ho, -⟩ := fill_failed hv hw hemits
              cases ho.symm.trans h
  · intro h
    cases h with
    | tooLong h => exact ⟨_, (writeServices_unjudged h).2⟩
    | nullFolder h => exact ⟨_, writeServices_nullCharacter (openOutput_eq_null.mpr (Or.inl h))⟩
    | nullName h hfolder => exact ⟨_, writeServices_nullCharacter (openOutput_eq_null.mpr (Or.inr ⟨h, hfolder⟩))⟩
    | @unreal loc opened bytes e hexists hopened hemits hreal =>
      obtain ⟨made, -, hv, rfl⟩ := openOutput_eq_some hopened
      rw [set_set] at hreal
      refine ⟨.real e, ?_⟩
      simp only [writeServices, hexists, hopened]
      rw [fill_result hv hw hemits, hreal]

/-- All that can be wrong with a file is found by the parser. -/
lemma servicesOf_of_file (hfile : fs.isFile input = .ok true) :
    (∃ e, (servicesOf fs input).1 = .error (.parse e)) ∨ ∃ services, (servicesOf fs input).1 = .ok services := by
  obtain ⟨held, hstat⟩ := isFile_eq_true.mp hfile
  rw [servicesOf_of_stat hstat]
  cases hparse : parseBytes input.text held with
  | error e => exact Or.inl ⟨e, rfl⟩
  | ok tree =>
    obtain ⟨text, -, htree⟩ := parse_of_parseBytes hparse
    obtain ⟨services, hservices⟩ := Service.exists_extract htree
    exact Or.inr ⟨services, mapError_eq_ok.mpr hservices⟩

/-- A file without services has its outcome, whatever is wrong with it. -/
lemma generateFile_without_services (hfile : fs.isFile input = .ok true)
    (hnone : ∀ s ss, (servicesOf fs input).1 ≠ .ok (s :: ss)) :
    ∃ o, (generateFile fs root out input w).result = .ok o := by
  have hread := servicesOf_of_file hfile
  unfold generateFile
  generalize servicesOf fs input = served at hread hnone ⊢
  obtain ⟨result, log⟩ := served
  rcases hread with ⟨e, rfl⟩ | ⟨services, rfl⟩
  · exact ⟨_, rfl⟩
  · cases services with
    | nil => exact ⟨_, rfl⟩
    | cons s ss => exact absurd rfl (hnone s ss)

/-- Processing a file that is named from the root ends the run only at its stub file. -/
lemma generateFile_eq_error (hw : w.Untouching) (hfile : fs.isFile input = .ok true)
    (htarget : outputPath input root out w = .ok target) :
    (∃ e, (generateFile fs root out input w).result = .error e) ↔ Astray fs root out w input := by
  unfold Astray
  by_cases hserved : ∃ s ss, (servicesOf fs input).1 = .ok (s :: ss)
  · obtain ⟨s, ss, hservices⟩ := hserved
    rw [(generateFile_of_services hservices htarget).2, writeServices_eq_error hw]
    simp [hservices, htarget]
  · have hnone : ∀ s ss, (servicesOf fs input).1 ≠ .ok (s :: ss) := fun s ss h => hserved ⟨s, ss, h⟩
    obtain ⟨o, ho⟩ := @generateFile_without_services fs root out input w hfile hnone
    constructor
    · rintro ⟨e, he⟩
      cases ho.symm.trans he
    · rintro ⟨services, -, hservices, hne, -⟩
      obtain ⟨s, ss, rfl⟩ := List.exists_cons_of_ne_nil hne
      exact absurd hservices (hnone s ss)

/-- The outcomes of a run are those of its inputs, in their order. -/
lemma input_generateEach (hw : w.Untouching) (h : (generateEach none root out w fs inputs).result = .ok outcomes) :
    outcomes.map Outcome.input = inputs := by
  induction inputs generalizing fs outcomes with
  | nil =>
    cases h
    rfl
  | cons input inputs ih =>
    cases hfirst : (generateFile fs root out input w).result with
    | error e =>
      rw [(generateEach_of_error hfirst inputs).2] at h
      cases h
    | ok o =>
      rw [(generateEach_of_ok hfirst inputs).2] at h
      obtain ⟨os, hos, rfl⟩ := exists_of_map_eq_ok h
      have hinput : o.input = input := by
        rcases generateFile_cases hw fs root out input with hidle | ⟨loc, bytes, hmade⟩
        · exact (hidle.outcome o hfirst).1
        · exact (hmade.outcome o hfirst).1
      rw [List.map_cons, ih hos, hinput]

/-- A run over files that are named from the root comes to its end if none of them goes astray when its
turn has come. -/
lemma generateEach_eq_ok (hw : w.Untouching) (hfiles : ∀ input ∈ inputs, fs.isFile input = .ok true)
    (htargets : ∀ input ∈ inputs, ∃ target, outputPath input root out w = .ok target) :
    (∃ outcomes, (generateEach none root out w fs inputs).result = .ok outcomes) ↔
      ∀ before input after, inputs = before ++ input :: after →
        ¬ Astray (filesAfter fs root out w before) root out w input := by
  induction inputs generalizing fs with
  | nil => exact ⟨fun _ before input after hsplit => by simp at hsplit, fun _ => ⟨[], rfl⟩⟩
  | cons first inputs ih =>
    rw [List.forall_mem_cons] at hfiles htargets
    obtain ⟨target, htarget⟩ := htargets.1
    have hastray := generateFile_eq_error hw hfiles.1 htarget
    cases hfirst : (generateFile fs root out first w).result with
    | error e =>
      rw [(generateEach_of_error hfirst inputs).2]
      constructor
      · rintro ⟨outcomes, h⟩
        cases h
      · intro h
        exact absurd (hastray.mp ⟨e, hfirst⟩) (h [] first inputs rfl)
    | ok o =>
      have hkept := extends_generateFile hw fs root out first
      have hothers := ih (fun input hinput => hkept.isFile (hfiles.2 input hinput)) htargets.2
      rw [(generateEach_of_ok hfirst inputs).2]
      have hmap : (∃ outcomes, (generateEach none root out w (generateFile fs root out first w).fs
          inputs).result.map (o :: ·) = .ok outcomes) ↔
          ∃ outcomes, (generateEach none root out w (generateFile fs root out first w).fs inputs).result =
            .ok outcomes := by
        cases (generateEach none root out w (generateFile fs root out first w).fs inputs).result with
        | error e => simp [Except.map]
        | ok os => simp [Except.map]
      rw [hmap, hothers]
      constructor
      · intro h before input after hsplit
        cases before with
        | nil =>
          obtain ⟨rfl, rfl⟩ := List.cons.inj hsplit
          rintro hstray
          obtain ⟨e, he⟩ := hastray.mpr hstray
          rw [hfirst] at he
          cases he
        | cons b before =>
          obtain ⟨rfl, rfl⟩ := List.cons.inj hsplit
          rw [filesAfter_cons hfirst]
          exact h before input after rfl
      · intro h before input after hsplit
        have hnot := h (first :: before) input after (by rw [hsplit, List.cons_append])
        rwa [filesAfter_cons hfirst] at hnot

lemma exists_outputPath (h : Under root input) : ∃ target, outputPath input root out w = .ok target := by
  unfold outputPath
  by_cases hroot : input = root
  · exact ⟨_, if_pos hroot⟩
  · have hrelative : input.relativeTo? root = some ⟨.here, input.parts.drop root.parts.length⟩ := by
      simp [Path.relativeTo?, h.1, List.isPrefixOf_iff_prefix.mpr h.2]
    simp [hroot, hrelative]

lemma exists_report {recursive : Bool} (hfound : (fs.discover root recursive).result = .ok inputs) :
    (∃ report, (generate none fs root out recursive w).result = .ok report) ↔
      ∃ outcomes, (generateEach none root out w fs inputs).result = .ok outcomes := by
  rw [(generate_of_discover hfound).2]
  cases (generateEach none root out w fs inputs).result with
  | error e => simp [Except.map]
  | ok outcomes => simp [Except.map]

/-- A run over the inputs under a root has a report if none of them goes astray. -/
lemma exists_report_iff {recursive : Bool} (hw : w.Untouching)
    (hfound : (fs.discover root recursive).result = .ok inputs) :
    (∃ report, (generate none fs root out recursive w).result = .ok report) ↔
      ∀ before input after, inputs = before ++ input :: after →
        ¬ Astray (filesAfter fs root out w before) root out w input := by
  rw [exists_report hfound]
  exact generateEach_eq_ok hw (all_discover root inputs hfound) fun input hinput =>
    exists_outputPath (under_discover root inputs hfound input hinput)

/-- Behind the last separator a text ends as it does. -/
lemma fields_append {sep : Char} {ys : List Char} (hys : sep ∉ ys) (xs : List Char) :
    ∃ front z, Text.fields sep (xs ++ ys) = front ++ [z ++ ys] := by
  induction xs with
  | nil =>
    refine ⟨[], [], ?_⟩
    induction ys with
    | nil => rfl
    | cons y ys ih =>
      rw [List.mem_cons, not_or] at hys
      have htail : Text.fields sep ys = [ys] := ih hys.2
      simp [Text.fields, htail, Ne.symm hys.1]
  | cons c xs ih =>
    obtain ⟨front, z, hfields⟩ := ih
    rw [List.cons_append, Text.fields, hfields]
    cases front with
    | nil =>
      by_cases hc : c = sep
      · exact ⟨[[]], z, by simp [hc]⟩
      · exact ⟨[], c :: z, by simp [hc]⟩
    | cons f front =>
      by_cases hc : c = sep
      · exact ⟨[] :: f :: front, z, by simp [hc]⟩
      · exact ⟨(c :: f) :: front, z, by simp [hc]⟩

/-- A text with a proper ending spells a path with a last name. -/
lemma ofString_append {base suffix : String} (hslash : '/' ∉ suffix.toList)
    (hending : ∃ c ∈ suffix.toList, c ≠ '.') :
    ∃ a ps n, Path.ofString (base ++ suffix) = ⟨a, ps ++ [n]⟩ ∧ n ≠ ".." := by
  obtain ⟨front, z, hfields⟩ := fields_append hslash base.toList
  have hdots : ∀ name : String, (∀ c ∈ name.toList, c = '.') → String.ofList (z ++ suffix.toList) ≠ name := by
    rintro name hall rfl
    obtain ⟨c, hc, hne⟩ := hending
    exact hne (hall c (by simp [hc]))
  have hname : Path.isName (String.ofList (z ++ suffix.toList)) = true := by
    simp only [Path.isName, Bool.and_eq_true, bne_iff_ne]
    exact ⟨hdots "" (by simp), hdots "." (by simp)⟩
  have hparts : (Path.ofString (base ++ suffix)).parts =
      ((front.map String.ofList).filter Path.isName) ++ [String.ofList (z ++ suffix.toList)] := by
    rw [Path.ofString, String.toList_append, hfields, List.map_append, List.filter_append]
    simp only [List.map_cons, List.map_nil, List.filter_cons, hname, if_true, List.filter_nil]
  exact ⟨_, _, _, congrArg (Files.Path.mk (Path.ofString (base ++ suffix)).anchor) hparts, hdots ".." (by simp)⟩

/-- The writers that come with the program. -/
inductive Bundled : Writer → Prop
  | python : Bundled Python.writer
  | recorder (failures : List (String × String)) (calls : List WriteCall) :
      Bundled (Recorder.writer { failures, calls })

namespace Bundled

lemma untouching (h : Bundled w) : w.Untouching := by
  cases h with
  | python => exact Python.writer_untouching
  | recorder failures calls => exact Recorder.writer_untouching _

lemma exists_suffix (h : Bundled w) (base : String) : ∃ stem suffix, w.fileName base = stem ++ suffix ∧
    '/' ∉ suffix.toList ∧ ∃ c ∈ suffix.toList, c ≠ '.' := by
  cases h with
  | python => exact ⟨_, "_service.py", fileName_python base, by decide, '_', by decide, by decide⟩
  | recorder failures calls => exact ⟨base, ".stub", rfl, by decide, 's', by decide, by decide⟩

/-- The stub file of an input below the root has a name of its own, and lies below the output root or is
named from the root of all files. -/
lemma exists_target (h : Bundled w) (hout : out.Proper) (hbelow : input = root ∨ Below root input) :
    ∃ a ps n, outputPath input root out w = .ok ⟨a, ps ++ [n]⟩ ∧ Path.Proper ⟨a, ps ++ [n]⟩ ∧ n ≠ ".." ∧
      (a = .here → out.anchor = .here) := by
  have hfolder : ∃ folder : Path, folder.anchor = out.anchor ∧ folder.Proper ∧
      outputPath input root out w = .ok (folder.join (Path.ofString (w.fileName (baseName input)))) := by
    rcases hbelow with rfl | ⟨names, hnames, hplain, rfl⟩
    · exact ⟨out, rfl, hout, if_pos rfl⟩
    · refine ⟨⟨out.anchor, out.parts ++ names.dropLast⟩, rfl, fun x hx => ?_, outputPath_below hnames⟩
      rcases List.mem_append.mp hx with hx | hx
      · exact hout x hx
      · have hx' := hplain x (List.dropLast_subset _ hx)
        exact ⟨hx'.1, hx'.2.1⟩
  obtain ⟨folder, hanchor, hproper, htarget⟩ := hfolder
  obtain ⟨stem, suffix, hname, hslash, hending⟩ := h.exists_suffix (baseName input)
  obtain ⟨a, ps, n, hspelled, hn⟩ := @ofString_append stem suffix hslash hending
  have hps := Path.proper_ofString (stem ++ suffix)
  rw [hname, hspelled] at htarget
  rw [hspelled] at hps
  by_cases ha : a = .here
  · subst ha
    refine ⟨folder.anchor, folder.parts ++ ps, n, ?_, fun x hx => ?_, hn, fun hhere => hanchor ▸ hhere⟩
    · rw [htarget]
      simp [Path.join, Path.isAbsolute]
    · rw [List.append_assoc] at hx
      rcases List.mem_append.mp hx with hx | hx
      · exact hproper x hx
      · exact hps x hx
  · refine ⟨a, ps, n, ?_, hps, hn, fun hhere => absurd hhere ha⟩
    rw [htarget]
    simp [Path.join, Path.isAbsolute, ha]

end Bundled

/-- The stub file of the input has a path that no file system refuses, and its real path can be told. -/
structure Placed (fs : FileSystem) (root out : Path) (w : Writer) (input : Path) (a : Anchor) (ps : List String)
    (n : String) : Prop where
  target : outputPath input root out w = .ok ⟨a, ps ++ [n]⟩
  admitted : admissible ⟨a, ps ++ [n]⟩ = .ok ()
  fit : Fit (ps ++ [n])
  name : n ≠ ".."
  anchored : (fs.startOf a).lost = 0

lemma writeServices_ok (h : fs.LinkFree) (hwell : fs.WellFormed) (hw : w.Untouching)
    (hplaced : Placed fs root out w input a ps n) :
    ∃ o, (writeServices fs input ⟨a, ps ++ [n]⟩ w services).result = .ok o := by
  obtain ⟨-, hq, hps, hn, hlost⟩ := hplaced
  cases hground : ground fs a ps n with
  | barred =>
    obtain ⟨-, fault, q, hresult, -⟩ := writeServices_barred h hwell hq hps hn hground
    exact ⟨_, hresult⟩
  | held => exact ⟨_, (writeServices_held h hwell hq hps hn hground).2⟩
  | vacant =>
    cases hfailure : (w.emitAll (baseName input) (w.fileName (baseName input)) [] services).failure with
    | some failure => exact ⟨_, (writeServices_failed h hwell hq hps hn hw hground hfailure).2⟩
    | none =>
      have hresult := (writeServices_finished h hwell hq hps hn hw hground hfailure).2
      rw [if_neg (not_not.mpr hlost)] at hresult
      exact ⟨_, hresult⟩

lemma generateFile_ok (h : fs.LinkFree) (hwell : fs.WellFormed) (hw : w.Untouching)
    (hfile : fs.isFile input = .ok true) (hplaced : Placed fs root out w input a ps n) :
    ∃ o, (generateFile fs root out input w).result = .ok o := by
  by_cases hserved : ∃ s ss, (servicesOf fs input).1 = .ok (s :: ss)
  · obtain ⟨s, ss, hservices⟩ := hserved
    rw [(generateFile_of_services hservices hplaced.target).2]
    exact writeServices_ok h hwell hw hplaced
  · exact generateFile_without_services hfile fun s ss hservices => hserved ⟨s, ss, hservices⟩

lemma generateEach_ok (h : fs.LinkFree) (hwell : fs.WellFormed) (hw : w.Untouching)
    (hfiles : ∀ input ∈ inputs, fs.isFile input = .ok true)
    (hplaced : ∀ input ∈ inputs, ∃ a ps n, Placed fs root out w input a ps n) :
    ∃ outcomes, (generateEach none root out w fs inputs).result = .ok outcomes := by
  induction inputs generalizing fs with
  | nil => exact ⟨[], rfl⟩
  | cons input inputs ih =>
    rw [List.forall_mem_cons] at hfiles hplaced
    obtain ⟨a, ps, n, hown⟩ := hplaced.1
    obtain ⟨o, hfirst⟩ := generateFile_ok h hwell hw hfiles.1 hown
    obtain ⟨hlinks, hwell'⟩ := generateFile_keeps h hwell hown.target hown.fit hown.name hw
    have hkept := extends_generateFile hw fs root out input
    have hothers : ∀ other ∈ inputs, ∃ a ps n, Placed (generateFile fs root out input w).fs root out w other a ps n := by
      intro other hother
      obtain ⟨a, ps, n, hplaced⟩ := hplaced.2 other hother
      exact ⟨a, ps, n, { hplaced with anchored := by rw [hkept.startOf]; exact hplaced.anchored }⟩
    obtain ⟨os, hos⟩ := ih hlinks hwell' (fun other hother => hkept.isFile (hfiles.2 other hother)) hothers
    refine ⟨o :: os, ?_⟩
    rw [(generateEach_of_ok hfirst inputs).2, hos]
    rfl

/-- A run has a report exactly if the inputs are found and none of them goes astray when its turn has come,
and the report has one outcome for each input, in order. Without links, no input goes astray if the working
folder is there and the stub files have paths and names that are not too long and hold no null character. -/
theorem generate_isolates {w : Writer} (hw : Bundled w) (fs : FileSystem) (root out : Path) (recursive : Bool) :
    (∀ report, (generate none fs root out recursive w).result = .ok report →
      (fs.discover root recursive).result = .ok (report.outcomes.map Outcome.input)) ∧
    ((∃ report, (generate none fs root out recursive w).result = .ok report) ↔
      ∃ inputs, (fs.discover root recursive).result = .ok inputs ∧
        ∀ before input after, inputs = before ++ input :: after →
          ¬ Astray (filesAfter fs root out w before) root out w input) ∧
    (fs.LinkFree → fs.WellFormed → out.Proper → fs.isAdrift out = false →
      ∀ inputs, (fs.discover root recursive).result = .ok inputs →
        (∀ input ∈ inputs, ∀ target, outputPath input root out w = .ok target →
          admissible target = .ok () ∧ ∀ name ∈ target.parts, name.utf8ByteSize ≤ nameLimit) →
        ∃ report, (generate none fs root out recursive w).result = .ok report) := by
  have huntouching := hw.untouching
  refine ⟨?_, ⟨?_, ?_⟩, ?_⟩
  · intro report h
    obtain ⟨inputs, hfound, hdone, -⟩ := generate_eq_ok h
    rw [hfound, input_generateEach huntouching hdone]
  · rintro ⟨report, h⟩
    obtain ⟨inputs, hfound, -, -⟩ := generate_eq_ok h
    exact ⟨inputs, hfound, (exists_report_iff huntouching hfound).mp ⟨report, h⟩⟩
  · rintro ⟨inputs, hfound, hstray⟩
    exact (exists_report_iff huntouching hfound).mpr hstray
  · intro hlinks hwell hout hadrift inputs hfound htargets
    have hplaced : ∀ input ∈ inputs, ∃ a ps n, Placed fs root out w input a ps n := by
      intro input hinput
      obtain ⟨a, ps, n, htarget, hproper, hn, hhere⟩ :=
        hw.exists_target hout (below_discover hlinks hwell root inputs hfound input hinput)
      obtain ⟨hadmitted, hshort⟩ := htargets input hinput _ htarget
      refine ⟨a, ps, n, htarget, hadmitted, fun x hx => ?_, hn, ?_⟩
      · exact ⟨(hproper x hx).1, (hproper x hx).2, hshort x hx⟩
      · cases a with
        | here => simpa [isAdrift, hhere rfl] using hadrift
        | root => rfl
        | twinRoot => rfl
    exact (exists_report hfound).mpr
      (generateEach_ok hlinks hwell huntouching (all_discover root inputs hfound) hplaced)

theorem nestedInputs_reported :
    ∃ report, (generate none nestedInputs (.ofString "in") (.ofString "o") true Python.writer).result = .ok report ∧
      report.outcomes.map Outcome.input = [.ofString "in/a.proto", .ofString "in/sub/b.proto"] := by
  obtain ⟨hinputs, -, hreport⟩ := generate_isolates .python nestedInputs (.ofString "in") (.ofString "o") true
  obtain ⟨report, h⟩ := hreport (by decide +kernel) (by decide +kernel) (Path.proper_ofString "o")
    (by decide +kernel) _ nestedInputs_found (by decide +kernel)
  refine ⟨report, h, ?_⟩
  have hfound := hinputs report h
  rw [nestedInputs_found] at hfound
  exact (Except.ok.inj hfound).symm

/-- A long name with an ending. -/
def longName (ending : String) : String := String.ofList (List.replicate 246 'a' ++ ending.toList)

/-- An input whose name leaves no room for the ending of a stub file, and a folder for its stub file. -/
def longInput : FileSystem where
  entries := [(["in"], .folder),
    (["in", longName ".proto"], .file (Text.encode "service S\x7b\x7d".toList)),
    (["out"], .folder)]
  here := []

def longRoot : Path := ⟨.here, ["in", longName ".proto"]⟩

def longTarget : Path := ⟨.here, ["out", longName "_service.py"]⟩

lemma admissible_pair {folder name : String} (hfolder : '\x00' ∉ folder.toList) (hname : '\x00' ∉ name.toList)
    (hsize : folder.utf8ByteSize + name.utf8ByteSize < 4000) : admissible ⟨.here, [folder, name]⟩ = .ok () := by
  have htext : Path.text ⟨.here, [folder, name]⟩ = folder ++ "/" ++ name := by
    simp [Path.text, Files.Anchor.text, String.intercalate_cons_cons, String.intercalate_singleton]
  rw [admissible_eq_ok, htext]
  constructor
  · simp only [String.toList_append, List.mem_append, not_or]
    exact ⟨⟨hfolder, by decide⟩, hname⟩
  · have hslash : "/".utf8ByteSize = 1 := by decide
    simp only [String.utf8ByteSize_append, hslash, pathLimit]
    omega

lemma null_longName {ending : String} (hending : '\x00' ∉ ending.toList) : '\x00' ∉ (longName ending).toList := by
  rw [longName, String.toList_ofList, List.mem_append, not_or]
  exact ⟨fun hmem => absurd (List.eq_of_mem_replicate hmem) (by decide), hending⟩

lemma outputPath_longRoot : outputPath longRoot longRoot (.ofString "out") Python.writer = .ok longTarget := by
  have hbase : baseName longRoot = longName "" := by
    have hstem : Path.stemOf (List.replicate 246 'a' ++ ".proto".toList) = List.replicate 246 'a' ++ "".toList := by
      decide +kernel
    change String.ofList (Path.stemOf (longName ".proto").toList) = longName ""
    rw [longName, String.toList_ofList, hstem, longName]
  have hfile : Python.writer.fileName (longName "") = longName "_service.py" := by
    have hmodule : (List.replicate 246 'a' ++ "".toList).map (fun c => if c = '-' then '_' else c) =
        List.replicate 246 'a' := by decide +kernel
    rw [fileName_python, ← String.toList_inj, String.toList_append, toList_underscored, longName, String.toList_ofList,
      hmodule, longName, @String.toList_ofList (_ ++ _)]
  have hpath : Path.ofString (longName "_service.py") = ⟨.here, [longName "_service.py"]⟩ := by
    have hfields : Text.fields '/' (List.replicate 246 'a' ++ "_service.py".toList) =
        [List.replicate 246 'a' ++ "_service.py".toList] := by decide +kernel
    have hanchor : Path.anchorOf (List.replicate 246 'a' ++ "_service.py".toList) = .here := by decide +kernel
    have hname : Path.isName (longName "_service.py") = true := by decide +kernel
    rw [Path.ofString, longName, String.toList_ofList, hfields, hanchor]
    simp only [List.map_cons, List.map_nil, List.filter_cons]
    rw [← longName, hname]
    rfl
  rw [outputPath, if_pos rfl, hbase, hfile, hpath]
  rfl

lemma longInput_linkFree : longInput.LinkFree := by decide +kernel

lemma admissible_longRoot : admissible longRoot = .ok () :=
  admissible_pair (by decide) (null_longName (by decide)) (by decide +kernel)

lemma stat_longRoot : longInput.stat longRoot = .ok (.file (Text.encode "service S\x7b\x7d".toList)) := by
  have hpass : longInput.pass (longInput.startOf longRoot.anchor) longRoot.parts =
      .ok ⟨["in", longName ".proto"], 0⟩ := by decide +kernel
  exact longInput_linkFree.stat_of_pass admissible_longRoot hpass (by decide +kernel)

lemma servicesOf_longRoot : (servicesOf longInput longRoot).1 = .ok [⟨"S", [], by decide⟩] := by
  rw [servicesOf_of_stat stat_longRoot]
  exact eq_ok_of_toOption (by decide +kernel)

lemma stat_longTarget : longInput.stat longTarget = .error (.onPath .nameTooLong longTarget) := by
  have htarget : admissible longTarget = .ok () :=
    admissible_pair (by decide) (null_longName (by decide)) (by decide +kernel)
  have hpass : longInput.pass (longInput.startOf longTarget.anchor) longTarget.parts = .error .nameTooLong := by
    decide +kernel
  unfold stat locate
  rw [longInput_linkFree.resolveNames_eq, htarget, hpass]
  rfl

/-- The stub file would have a name that is too long. Since its folder is there, the file system is asked
about the name before anything is made, and refuses to answer. -/
theorem longInput_stops :
    longInput.LinkFree ∧ longInput.WellFormed ∧ longInput.exists? longRoot = .ok true ∧
    (longInput.discover longRoot false).result = .ok [longRoot] ∧
    (generate none longInput longRoot (.ofString "out") false Python.writer).result =
      .error (.file (.onPath .nameTooLong longTarget)) := by
  have hfound : (longInput.discover longRoot false).result = .ok [longRoot] := by
    rw [discover_of_file stat_longRoot, discoverAs_eq_ok]
    have hnull := (admissible_eq_ok.mp admissible_longRoot).1
    exact ⟨(longInput_linkFree.realPath hnull).2 (by decide +kernel), rfl⟩
  have hstop : (generateFile longInput longRoot (.ofString "out") longRoot Python.writer).result =
      .error (.file (.onPath .nameTooLong longTarget)) := by
    rw [(generateFile_of_services servicesOf_longRoot outputPath_longRoot).2]
    exact (writeServices_unjudged stat_longTarget).2
  refine ⟨longInput_linkFree, by decide +kernel, exists_of_discover hfound, hfound, ?_⟩
  rw [(generate_of_discover hfound).2, (generateEach_of_error hstop []).2]
  rfl

end Stubsmith.Generation
