import Stubsmith.Proofs.Files.Faults
import Stubsmith.Proofs.Generation.Step

/-!
# The ground of a stub file

Without links, three things can be found where a stub file belongs, once the folders on the way there have
been made: the ground is barred if one of the folders could not be made, held if something stands there,
and otherwise vacant. That decides what becomes of the input, and which entries are new.
-/
namespace Stubsmith.Generation

open Files (Path Place FileSystem FileError Location Anchor Entry)
open Files.FileSystem
open Text (Bytes)

inductive Ground
  | barred
  | held
  | vacant
  deriving DecidableEq, Repr

/-- The location that the last name has in the folder to which the others lead. -/
def spot (fs : FileSystem) (a : Anchor) (ps : List String) (n : String) : Location :=
  ((fs.startOf a).along ps).location ++ [n]

/-- What is found at a path once the folders on the way there have been made. -/
def ground (fs : FileSystem) (a : Anchor) (ps : List String) (n : String) : Ground :=
  if (fs.pave (fs.startOf a) ps).1 = false ∨ ((fs.startOf a).along ps).lost ≠ 0 then .barred
  else if ((fs.pave (fs.startOf a) ps).2.get? (spot fs a ps n)).isSome then .held
  else .vacant

/-- Why no stub file can be made on barred ground. -/
def setback (fs : FileSystem) (a : Anchor) (ps : List String) (n : String) : FileError :=
  if (fs.pave (fs.startOf a) ps).1 = false then fs.obstacle a ps else .onPath .missing ⟨a, ps ++ [n]⟩

variable {fs fs' : FileSystem} {a : Anchor} {ps : List String} {n : String} {w : Writer} {input : Path}
variable {services : List Service}

lemma ground_eq_vacant : ground fs a ps n = .vacant ↔ (fs.pave (fs.startOf a) ps).1 = true ∧
    ((fs.startOf a).along ps).lost = 0 ∧ (fs.pave (fs.startOf a) ps).2.get? (spot fs a ps n) = none := by
  unfold ground
  cases (fs.pave (fs.startOf a) ps).1 with
  | false => simp
  | true =>
    by_cases hlost : ((fs.startOf a).along ps).lost = 0
    · cases (fs.pave (fs.startOf a) ps).2.get? (spot fs a ps n) <;> simp [hlost]
    · simp [hlost]

lemma ground_eq_held : ground fs a ps n = .held ↔ (fs.pave (fs.startOf a) ps).1 = true ∧
    ((fs.startOf a).along ps).lost = 0 ∧
      ∃ e, (fs.pave (fs.startOf a) ps).2.get? (spot fs a ps n) = some e := by
  unfold ground
  cases (fs.pave (fs.startOf a) ps).1 with
  | false => simp
  | true =>
    by_cases hlost : ((fs.startOf a).along ps).lost = 0
    · cases (fs.pave (fs.startOf a) ps).2.get? (spot fs a ps n) <;> simp [hlost]
    · simp [hlost]

section Open

variable (h : fs.LinkFree) (hw : fs.WellFormed) (hq : admissible ⟨a, ps ++ [n]⟩ = .ok ())
variable (hps : Fit (ps ++ [n])) (hn : n ≠ "..")
include h hw hq hps hn

/-- Something stands at a path if the way there is clear and its last name is taken. -/
lemma exists_eq : fs.exists? ⟨a, ps ++ [n]⟩ = .ok (decide (fs.way (fs.startOf a) ps = .clear ∧
    ((fs.startOf a).along ps).lost = 0 ∧ (fs.get? (spot fs a ps n)).isSome = true)) := by
  have hfirm := hw.firm_startOf a
  have habsent : ∀ fault, Files.Fault.meansAbsent fault = true →
      fs.pass (fs.startOf a) (ps ++ [n]) = .error fault → fs.exists? ⟨a, ps ++ [n]⟩ = .ok false := by
    intro fault hfault hpass
    simp [exists?, ask, stat, locate, hq, h.resolveNames_eq, hpass, hfault, blame, bind, Except.bind,
      Except.mapError]
  cases hway : fs.way (fs.startOf a) ps with
  | clear =>
    obtain ⟨hpass, hend⟩ := pass_clear h hfirm hps.left hway
    have hstep := step_name hend.folder (show Fit (n :: []) from fun x hx => hps x (by simp at hx; simp [hx])) hn
    unfold spot
    by_cases hlost : ((fs.startOf a).along ps).lost = 0
    · rw [if_neg (not_not.mpr hlost)] at hstep
      cases he : fs.get? (((fs.startOf a).along ps).location ++ [n]) with
      | none =>
        rw [habsent .missing rfl]
        · simp [hlost]
        · rw [pass_append, hpass]
          simp [Except.bind, pass_cons, hstep, he]
      | some e =>
        have hto : fs.pass (fs.startOf a) (ps ++ [n]) =
            .ok ⟨((fs.startOf a).along ps).location ++ [n], 0⟩ := by
          rw [pass_append, hpass]
          change fs.pass _ [n] = _
          rw [pass_cons, hstep, he]
          rfl
        have hstat : fs.stat ⟨a, ps ++ [n]⟩ = .ok e := h.stat_of_pass hq hto he
        simp [exists?, ask, hstat, hlost]
    · rw [if_pos hlost] at hstep
      rw [habsent .missing rfl]
      · simp [hlost]
      · rw [pass_append, hpass]
        simp [Except.bind, pass_cons, hstep]
  | gap =>
    rw [habsent .missing rfl]
    · simp
    · rw [pass_append, pass_gap h hfirm hps.left hway]
      rfl
  | stopped =>
    rw [habsent .notFolder rfl]
    · simp
    · rw [pass_append]
      rcases pass_stopped h hfirm hps.left hway with hpass | ⟨l, e, hpass, he, hne⟩
      · rw [hpass]
        rfl
      · rw [hpass]
        simp [Except.bind, pass_cons, step_of_ne_folder he hne]

/-- Once the way is paved, the last name decides whether there is a vacancy. -/
lemma vacancy_paved (hpave : (fs.pave (fs.startOf a) ps).1 = true) :
    (fs.pave (fs.startOf a) ps).2.vacancy ⟨a, ps ++ [n]⟩ =
      if ((fs.startOf a).along ps).lost ≠ 0 then .error (.onPath .missing ⟨a, ps ++ [n]⟩)
      else match (fs.pave (fs.startOf a) ps).2.get? (spot fs a ps n) with
        | some _ => .error (.onPath .taken ⟨a, ps ++ [n]⟩)
        | none => .ok (spot fs a ps n) := by
  have hfirm := hw.firm_startOf a
  obtain ⟨hlinks, hwell, hadds⟩ := pave_keeps h hw hfirm hps.left
  have hstart := hadds.toExtends.startOf a
  have hway := way_of_pave h hw hfirm hps.left hpave
  have hvacancy := vacancy_clear hlinks hwell hq hps (by rw [hstart]; exact hway)
  rwa [if_neg hn, hstart] at hvacancy

omit hn in
lemma openOutput_paved (hpave : (fs.pave (fs.startOf a) ps).1 = true) :
    openOutput fs ⟨a, ps ++ [n]⟩ =
      match (fs.pave (fs.startOf a) ps).2.createFile ⟨a, ps ++ [n]⟩ with
      | .ok (loc, made) => (.ok (some loc), made)
      | .error (.onPath .taken _) => (.ok none, (fs.pave (fs.startOf a) ps).2)
      | .error e => (.error e, (fs.pave (fs.startOf a) ps).2) := by
  have hpaves := paves_ensureFolder h hw (admissible_of_append hq) hps.left
  have hmade : fs.ensureFolder ⟨a, ps⟩ = (.ok (), (fs.pave (fs.startOf a) ps).2) :=
    Prod.ext (hpaves.done hpave) hpaves.files
  have hparent : Path.parent ⟨a, ps ++ [n]⟩ = ⟨a, ps⟩ := by simp [Path.parent]
  unfold openOutput
  rw [hparent]
  generalize fs.ensureFolder ⟨a, ps⟩ = folder at hmade ⊢
  subst hmade
  rfl

/-- Where something is found at once, the ground is held and no folder has to be made. -/
lemma exists_cases : fs.exists? ⟨a, ps ++ [n]⟩ = .ok false ∨
    fs.exists? ⟨a, ps ++ [n]⟩ = .ok true ∧ ground fs a ps n = .held ∧
      (fs.pave (fs.startOf a) ps).2 = fs := by
  rw [exists_eq h hw hq hps hn]
  by_cases hfound : fs.way (fs.startOf a) ps = .clear ∧ ((fs.startOf a).along ps).lost = 0 ∧
      (fs.get? (spot fs a ps n)).isSome = true
  · obtain ⟨hway, hlost, hsome⟩ := hfound
    simp [ground, pave_clear hway, hway, hlost, hsome]
  · simp [hfound]

/-- On vacant ground a new file is opened. -/
lemma openOutput_vacant (hground : ground fs a ps n = .vacant) :
    (fs.pave (fs.startOf a) ps).2.vacancy ⟨a, ps ++ [n]⟩ = .ok (spot fs a ps n) ∧
      openOutput fs ⟨a, ps ++ [n]⟩ =
        (.ok (some (spot fs a ps n)), (fs.pave (fs.startOf a) ps).2.set (spot fs a ps n) (.file [])) := by
  obtain ⟨hpave, hlost, hnone⟩ := ground_eq_vacant.mp hground
  have hvacancy := vacancy_paved h hw hq hps hn hpave
  rw [if_neg (not_not.mpr hlost), hnone] at hvacancy
  refine ⟨hvacancy, ?_⟩
  rw [openOutput_paved h hw hq hps hpave, createFile, hvacancy]
  rfl

/-- On ground that is held no file is opened. -/
lemma openOutput_held (hground : ground fs a ps n = .held) :
    openOutput fs ⟨a, ps ++ [n]⟩ = (.ok none, (fs.pave (fs.startOf a) ps).2) := by
  obtain ⟨hpave, hlost, e, he⟩ := ground_eq_held.mp hground
  have hvacancy := vacancy_paved h hw hq hps hn hpave
  rw [if_neg (not_not.mpr hlost), he] at hvacancy
  rw [openOutput_paved h hw hq hps hpave, createFile, hvacancy]
  rfl

/-- On barred ground, a folder on the way cannot be made, or the last one was removed. -/
lemma openOutput_barred (hground : ground fs a ps n = .barred) :
    ∃ fault q, openOutput fs ⟨a, ps ++ [n]⟩ = (.error (.onPath fault q), (fs.pave (fs.startOf a) ps).2) ∧
      (".." ∉ ps → .onPath fault q = setback fs a ps n) := by
  unfold setback
  cases hpave : (fs.pave (fs.startOf a) ps).1 with
  | false =>
    have hpaves := paves_ensureFolder h hw (admissible_of_append hq) hps.left
    obtain ⟨fault, q, herror⟩ := hpaves.failed hpave
    refine ⟨fault, q, ?_, fun hdots => ?_⟩
    · have hmade : fs.ensureFolder ⟨a, ps⟩ = (.error (.onPath fault q), (fs.pave (fs.startOf a) ps).2) :=
        Prod.ext herror hpaves.files
      simp [openOutput, Path.parent, hmade]
    · have hobstacle := ensureFolder_error h hw (admissible_of_append hq) hps.left hdots hpave
      rw [herror, Except.error.injEq] at hobstacle
      simpa using hobstacle
  | true =>
    have hlost : ((fs.startOf a).along ps).lost ≠ 0 := by
      intro hlost
      unfold ground at hground
      split_ifs at hground with hbar
      simp [hpave, hlost] at hbar
    have hvacancy := vacancy_paved h hw hq hps hn hpave
    rw [if_pos hlost] at hvacancy
    refine ⟨.missing, _, ?_, fun _ => rfl⟩
    rw [openOutput_paved h hw hq hps hpave, createFile, hvacancy]
    rfl

end Open

/-- The outcome of an input that has services and a place for its stub file. -/
def concluded (input target : Path) (services : List Service) (status : Status)
    (error : Option String) : Outcome :=
  { input, status, output := some target, services := services.length, error }

section Admissible

variable (h : fs.LinkFree) (hw : fs.WellFormed) (hq : admissible ⟨a, ps ++ [n]⟩ = .ok ())
variable (hps : Fit (ps ++ [n])) (hn : n ≠ "..")
include h hw hq hps hn

lemma writeServices_barred (hground : ground fs a ps n = .barred) :
    (writeServices fs input ⟨a, ps ++ [n]⟩ w services).fs = (fs.pave (fs.startOf a) ps).2 ∧
      ∃ fault q, (writeServices fs input ⟨a, ps ++ [n]⟩ w services).result =
        .ok (concluded input ⟨a, ps ++ [n]⟩ services .createError (some (FileError.onPath fault q).message)) ∧
        (".." ∉ ps → .onPath fault q = setback fs a ps n) := by
  rcases exists_cases h hw hq hps hn with hexists | ⟨-, hheld, -⟩
  · obtain ⟨fault, q, hopen, hsetback⟩ := openOutput_barred h hw hq hps hn hground
    simp only [writeServices, hexists, hopen]
    exact ⟨trivial, fault, q, rfl, hsetback⟩
  · rw [hground] at hheld
    cases hheld

lemma writeServices_held (hground : ground fs a ps n = .held) :
    (writeServices fs input ⟨a, ps ++ [n]⟩ w services).fs = (fs.pave (fs.startOf a) ps).2 ∧
      (writeServices fs input ⟨a, ps ++ [n]⟩ w services).result =
        .ok (concluded input ⟨a, ps ++ [n]⟩ services .existing none) := by
  rcases exists_cases h hw hq hps hn with hexists | ⟨hexists, -, hsame⟩
  · simp only [writeServices, hexists, openOutput_held h hw hq hps hn hground]
    exact ⟨trivial, rfl⟩
  · simp only [writeServices, hexists, hsame]
    exact ⟨trivial, rfl⟩

lemma writeServices_vacant (hground : ground fs a ps n = .vacant) :
    (fs.pave (fs.startOf a) ps).2.vacancy ⟨a, ps ++ [n]⟩ = .ok (spot fs a ps n) ∧
      writeServices fs input ⟨a, ps ++ [n]⟩ w services =
        fill ((fs.pave (fs.startOf a) ps).2.set (spot fs a ps n) (.file [])) input ⟨a, ps ++ [n]⟩
          (spot fs a ps n) w services := by
  obtain ⟨hvacancy, hopen⟩ := openOutput_vacant h hw hq hps hn hground
  refine ⟨hvacancy, ?_⟩
  rcases exists_cases h hw hq hps hn with hexists | ⟨-, hheld, -⟩
  · simp only [writeServices, hexists, hopen]
  · rw [hground] at hheld
    cases hheld

/-- On vacant ground, a writer that fails leaves only the folders behind. -/
lemma writeServices_failed (huntouching : w.Untouching) (hground : ground fs a ps n = .vacant)
    {failure : WriteFailure}
    (hfailure : (w.emitAll (baseName input) (w.fileName (baseName input)) [] services).failure = some failure) :
    (writeServices fs input ⟨a, ps ++ [n]⟩ w services).fs = (fs.pave (fs.startOf a) ps).2 ∧
      (writeServices fs input ⟨a, ps ++ [n]⟩ w services).result =
        .ok (concluded input ⟨a, ps ++ [n]⟩ services .writeError (some failure.message)) := by
  obtain ⟨hvacancy, hwrite⟩ := writeServices_vacant h hw hq hps hn hground
  have hnone : ¬ ∃ bytes, w.Emits (baseName input) [] services bytes := by
    rintro ⟨bytes, hemits⟩
    rw [(Writer.emits_iff.mp hemits).1] at hfailure
    cases hfailure
  rw [hwrite]
  refine ⟨(fill_failed hvacancy huntouching hnone).1, ?_⟩
  simp only [fill, hfailure]
  rfl

/-- On vacant ground, a writer that comes to its end leaves a stub file, which is reported unless the
working folder is gone. -/
lemma writeServices_finished (huntouching : w.Untouching) (hground : ground fs a ps n = .vacant)
    (hfailure : (w.emitAll (baseName input) (w.fileName (baseName input)) [] services).failure = none) :
    (writeServices fs input ⟨a, ps ++ [n]⟩ w services).fs =
        (fs.pave (fs.startOf a) ps).2.set (spot fs a ps n)
          (.file (w.emitAll (baseName input) (w.fileName (baseName input)) [] services).appended) ∧
      (writeServices fs input ⟨a, ps ++ [n]⟩ w services).result =
        if (fs.startOf a).lost ≠ 0 then .error (.real .workingFolderLost)
        else .ok (concluded input ⟨a, ps ++ [n]⟩ services .generated none) := by
  obtain ⟨hvacancy, hwrite⟩ := writeServices_vacant h hw hq hps hn hground
  rw [hwrite]
  refine ⟨(fill_finished hvacancy huntouching (Writer.emits_iff.mpr ⟨hfailure, rfl⟩)).1, ?_⟩
  obtain ⟨hlinks, -, hadds⟩ := pave_keeps h hw (hw.firm_startOf a) hps.left
  have hloc := ne_root_of_vacant (get?_vacancy hvacancy)
  simp only [fill, huntouching.emitAll, hfailure, Bool.false_eq_true, if_false, append_set hloc]
  generalize (w.emitAll (baseName input) (w.fileName (baseName input)) [] services).appended = bytes
  have hreal := (hlinks.set (by simp) : ((fs.pave (fs.startOf a) ps).2.set (spot fs a ps n)
    (.file ([] ++ bytes))).LinkFree).realPath (admissible_eq_ok.mp hq).1
  have hstart : ((fs.pave (fs.startOf a) ps).2.set (spot fs a ps n) (.file ([] ++ bytes))).startOf a =
      fs.startOf a := ((extends_set (get?_vacancy hvacancy) _).startOf a).trans (hadds.toExtends.startOf a)
  simp only [isAdrift, hstart, bne_iff_ne, bne_eq_false_iff_eq] at hreal
  by_cases hlost : (fs.startOf a).lost = 0
  · obtain ⟨real, hreal⟩ := hreal.2 hlost
    rw [hreal, if_neg (not_not.mpr hlost)]
    rfl
  · rw [hreal.1 hlost, if_pos hlost]

end Admissible

/-- A run goes no further if the file system cannot judge the path of a stub file. -/
lemma writeServices_unjudged {target : Path} (h : fs.stat target = .error (.onPath .nameTooLong target)) :
    (writeServices fs input target w services).fs = fs ∧
      (writeServices fs input target w services).result = .error (.file (.onPath .nameTooLong target)) := by
  simp [writeServices, exists_eq_error.mpr ⟨rfl, h⟩]

/-- A path that is too long is not asked about. -/
lemma writeServices_tooLong {target q : Path} {fault : Files.Fault}
    (hq : admissible target = .error (.onPath fault q)) :
    (writeServices fs input target w services).fs = fs ∧
      (writeServices fs input target w services).result = .error (.file (.onPath fault q)) := by
  have hstat : fs.stat target = .error (.onPath fault q) := by simp [stat, locate, hq, bind, Except.bind]
  unfold admissible at hq
  split_ifs at hq
  · cases hq
  · cases hq
    exact writeServices_unjudged hstat

section NullCharacter

variable (hq : admissible ⟨a, ps ++ [n]⟩ = .error .nullCharacter)
include hq

/-- Nothing is made on the way to a path with a null character if what leads to it is no path either. -/
lemma writeServices_nullParent {e : FileError} (hparent : admissible ⟨a, ps⟩ = .error e) :
    (writeServices fs input ⟨a, ps ++ [n]⟩ w services).fs = fs ∧
      (writeServices fs input ⟨a, ps ++ [n]⟩ w services).result =
        if e = .nullCharacter then .error (.file .nullCharacter)
        else .ok (concluded input ⟨a, ps ++ [n]⟩ services .createError (some e.message)) := by
  have hopen : openOutput fs ⟨a, ps ++ [n]⟩ = (.error e, fs) := by
    simp [openOutput, Path.parent, ensureFolder_inadmissible hparent]
  cases e with
  | nullCharacter => simp [writeServices, exists_of_null (admissible_eq_null.mp hq), hopen]
  | onPath fault q =>
    simp only [writeServices, exists_of_null (admissible_eq_null.mp hq), hopen, reduceCtorEq, if_false, true_and]
    rfl

/-- The folders on the way to a path with a null character are made in vain. -/
lemma writeServices_null (h : fs.LinkFree) (hw : fs.WellFormed) (hparent : admissible ⟨a, ps⟩ = .ok ())
    (hps : Fit ps) :
    (writeServices fs input ⟨a, ps ++ [n]⟩ w services).fs = (fs.pave (fs.startOf a) ps).2 ∧
      ((fs.pave (fs.startOf a) ps).1 = true →
        (writeServices fs input ⟨a, ps ++ [n]⟩ w services).result = .error (.file .nullCharacter)) ∧
      ((fs.pave (fs.startOf a) ps).1 = false →
        ∃ fault q, (writeServices fs input ⟨a, ps ++ [n]⟩ w services).result =
          .ok (concluded input ⟨a, ps ++ [n]⟩ services .createError (some (FileError.onPath fault q).message)) ∧
          (".." ∉ ps → .onPath fault q = fs.obstacle a ps)) := by
  have hpaves := paves_ensureFolder h hw hparent hps
  cases hpave : (fs.pave (fs.startOf a) ps).1 with
  | true =>
    have hmade : fs.ensureFolder ⟨a, ps⟩ = (.ok (), (fs.pave (fs.startOf a) ps).2) :=
      Prod.ext (hpaves.done hpave) hpaves.files
    have hopen : openOutput fs ⟨a, ps ++ [n]⟩ = (.error .nullCharacter, (fs.pave (fs.startOf a) ps).2) := by
      simp [openOutput, Path.parent, hmade, createFile, vacancy, locateLast, hq, bind, Except.bind]
    simp [writeServices, exists_of_null (admissible_eq_null.mp hq), hopen]
  | false =>
    obtain ⟨fault, q, herror⟩ := hpaves.failed hpave
    have hmade : fs.ensureFolder ⟨a, ps⟩ = (.error (.onPath fault q), (fs.pave (fs.startOf a) ps).2) :=
      Prod.ext herror hpaves.files
    have hopen : openOutput fs ⟨a, ps ++ [n]⟩ =
        (.error (.onPath fault q), (fs.pave (fs.startOf a) ps).2) := by
      simp [openOutput, Path.parent, hmade]
    simp only [writeServices, exists_of_null (admissible_eq_null.mp hq), hopen, Bool.false_eq_true, false_implies, true_and,
      true_implies]
    refine ⟨fault, q, rfl, fun hdots => ?_⟩
    have hobstacle := ensureFolder_error h hw hparent hps hdots hpave
    rwa [herror, Except.error.injEq] at hobstacle

end NullCharacter

/-- The files after an input are those before it, the folders on the way apart and, on vacant ground,
the stub file. -/
lemma writeServices_files (h : fs.LinkFree) (hw : fs.WellFormed) (hps : Fit (ps ++ [n])) (hn : n ≠ "..")
    (huntouching : w.Untouching) :
    (writeServices fs input ⟨a, ps ++ [n]⟩ w services).fs = fs ∨
      (writeServices fs input ⟨a, ps ++ [n]⟩ w services).fs = (fs.pave (fs.startOf a) ps).2 ∨
      ground fs a ps n = .vacant ∧ ∃ bytes, (writeServices fs input ⟨a, ps ++ [n]⟩ w services).fs =
        (fs.pave (fs.startOf a) ps).2.set (spot fs a ps n) (.file bytes) := by
  cases hq : admissible ⟨a, ps ++ [n]⟩ with
  | error e =>
    cases e with
    | onPath fault q => exact Or.inl (writeServices_tooLong hq).1
    | nullCharacter =>
      cases hparent : admissible ⟨a, ps⟩ with
      | error e => exact Or.inl (writeServices_nullParent hq hparent).1
      | ok u => exact Or.inr (Or.inl (writeServices_null hq h hw hparent hps.left).1)
  | ok u =>
    right
    cases hground : ground fs a ps n with
    | barred => exact Or.inl (writeServices_barred h hw hq hps hn hground).1
    | held => exact Or.inl (writeServices_held h hw hq hps hn hground).1
    | vacant =>
      cases hfailure : (w.emitAll (baseName input) (w.fileName (baseName input)) [] services).failure with
      | some failure => exact Or.inl (writeServices_failed h hw hq hps hn huntouching hground hfailure).1
      | none => exact Or.inr ⟨rfl, _, (writeServices_finished h hw hq hps hn huntouching hground hfailure).1⟩

lemma writeServices_keeps (h : fs.LinkFree) (hw : fs.WellFormed) (hps : Fit (ps ++ [n])) (hn : n ≠ "..")
    (huntouching : w.Untouching) :
    (writeServices fs input ⟨a, ps ++ [n]⟩ w services).fs.LinkFree ∧
      (writeServices fs input ⟨a, ps ++ [n]⟩ w services).fs.WellFormed := by
  have hfirm := hw.firm_startOf a
  obtain ⟨hlinks, hwell, hadds⟩ := pave_keeps h hw hfirm hps.left
  rcases writeServices_files h hw hps hn huntouching with hfs | hfs | ⟨hground, bytes, hfs⟩
  · rw [hfs]
    exact ⟨h, hw⟩
  · rw [hfs]
    exact ⟨hlinks, hwell⟩
  · rw [hfs]
    refine ⟨hlinks.set (by simp), ?_⟩
    obtain ⟨hpave, hlost, hnone⟩ := ground_eq_vacant.mp hground
    have hway := way_of_pave h hw hfirm hps.left hpave
    have hend := (pass_clear hlinks (hfirm.of_extends hadds.toExtends) hps.left hway).2
    obtain ⟨hempty, hdot, -⟩ := hps n (by simp)
    unfold spot at hnone ⊢
    exact hwell.set (hend.get? hlost) ⟨hempty, hdot, hn⟩ (by simp [hnone]) _

end Stubsmith.Generation
