import Stubsmith.Proofs.Files.LinkFree

/-!
# Folders made along a way

Without links, making sure of a folder and of all folders above it is making folders along a way, name by
name, up to the first place where that cannot be done. Two file systems in which files stand at the same
places of the way get the same folders, whatever else stands in them.
-/
namespace Stubsmith.Files.FileSystem

variable {fs fs' : FileSystem} {loc : Location} {name : String} {p : Place} {q : Path} {a : Anchor}
variable {x : String} {xs ys : List String}

/-- Makes folders along the names, and tells whether that has come to its end: no file may stand on the
way, and nothing can be made in a folder that was removed. -/
def pave : FileSystem → Place → List String → Bool × FileSystem
  | fs, _, [] => (true, fs)
  | fs, p, name :: rest =>
    if name = ".." then pave fs p.up rest
    else if p.lost ≠ 0 then (false, fs)
    else match fs.get? (p.location ++ [name]) with
      | some .folder => pave fs ⟨p.location ++ [name], 0⟩ rest
      | some _ => (false, fs)
      | none => pave (fs.set (p.location ++ [name]) .folder) ⟨p.location ++ [name], 0⟩ rest

lemma pave_up : fs.pave p (".." :: xs) = fs.pave p.up xs := by rw [pave, if_pos rfl]

lemma pave_lost (hup : name ≠ "..") (hlost : p.lost ≠ 0) : fs.pave p (name :: xs) = (false, fs) := by
  rw [pave, if_neg hup, if_pos hlost]

lemma pave_name (hup : name ≠ "..") (hlost : p.lost = 0) : fs.pave p (name :: xs) =
    match fs.get? (p.location ++ [name]) with
    | some .folder => fs.pave ⟨p.location ++ [name], 0⟩ xs
    | some _ => (false, fs)
    | none => (fs.set (p.location ++ [name]) .folder).pave ⟨p.location ++ [name], 0⟩ xs := by
  rw [pave, if_neg hup, if_neg (not_not.mpr hlost)]

lemma pave_append : fs.pave p (xs ++ ys) =
    if (fs.pave p xs).1 then (fs.pave p xs).2.pave (p.along xs) ys else fs.pave p xs := by
  induction xs generalizing fs p with
  | nil => rfl
  | cons name xs ih =>
    rw [List.cons_append]
    by_cases hup : name = ".."
    · subst hup
      rw [pave_up, pave_up, along_up]
      exact ih
    · by_cases hlost : p.lost = 0
      · rw [pave_name hup hlost, pave_name hup hlost, along_name hup]
        cases fs.get? (p.location ++ [name]) with
        | none => exact ih
        | some e =>
          cases e with
          | folder => exact ih
          | file bytes => rfl
          | link target => rfl
          | device => rfl
      · rw [pave_lost hup hlost, pave_lost hup hlost]
        rfl

/-- Nothing has to be made along a clear way. -/
lemma pave_clear (hway : fs.way p xs = .clear) : fs.pave p xs = (true, fs) := by
  induction xs generalizing p with
  | nil => rfl
  | cons name xs ih =>
    by_cases hup : name = ".."
    · subst hup
      rw [way_up] at hway
      rw [pave_up, ih hway]
    · rw [way_name hup] at hway
      by_cases hlost : p.lost = 0
      · rw [if_neg (not_not.mpr hlost)] at hway
        rw [pave_name hup hlost]
        cases he : fs.get? (p.location ++ [name]) with
        | none => simp [he] at hway
        | some e =>
          cases e with
          | folder =>
            simp only [he] at hway
            exact ih hway
          | file bytes => simp [he] at hway
          | link target => simp [he] at hway
          | device => simp [he] at hway
      · rw [if_pos hlost] at hway
        cases hway

/-- Nothing is made where a file stands before the first gap. -/
lemma pave_stopped (hway : fs.way p xs = .stopped) : fs.pave p xs = (false, fs) := by
  induction xs generalizing p with
  | nil => cases hway
  | cons name xs ih =>
    by_cases hup : name = ".."
    · subst hup
      rw [way_up] at hway
      rw [pave_up, ih hway]
    · rw [way_name hup] at hway
      by_cases hlost : p.lost = 0
      · rw [if_neg (not_not.mpr hlost)] at hway
        rw [pave_name hup hlost]
        cases he : fs.get? (p.location ++ [name]) with
        | none => simp [he] at hway
        | some e =>
          cases e with
          | folder =>
            simp only [he] at hway
            exact ih hway
          | file bytes => rfl
          | link target => rfl
          | device => rfl
      · rw [if_pos hlost] at hway
        cases hway

lemma Firm.of_extends (h : fs.Firm p) (he : fs.Extends fs') : fs'.Firm p := fun k => he.entryAt? (h k)

/-- What is made along a way are folders in vacant places, and the file system stays well-formed and
without links. -/
lemma pave_keeps (h : fs.LinkFree) (hw : fs.WellFormed) (hp : fs.Firm p) (hxs : Fit xs) :
    (fs.pave p xs).2.LinkFree ∧ (fs.pave p xs).2.WellFormed ∧ fs.AddsFolders (fs.pave p xs).2 := by
  induction xs generalizing fs p with
  | nil => exact ⟨h, hw, .refl fs⟩
  | cons name xs ih =>
    by_cases hup : name = ".."
    · subst hup
      rw [pave_up]
      exact ih h hw hp.up hxs.tail
    · by_cases hlost : p.lost = 0
      · rw [pave_name hup hlost]
        cases he : fs.get? (p.location ++ [name]) with
        | none =>
          obtain ⟨hempty, hdot, -⟩ := hxs name (by simp)
          have hset := hw.set (hp.get? hlost) ⟨hempty, hdot, hup⟩ (by simp [he]) .folder
          have hadds := addsFolders_set he
          have hfirm : (fs.set (p.location ++ [name]) .folder).Firm ⟨p.location ++ [name], 0⟩ :=
            hset.firm_of_folder (by rw [get?_set (by simp), if_pos rfl])
          obtain ⟨hlinks, hwell, hmore⟩ := ih (h.set (by simp)) hset hfirm hxs.tail
          exact ⟨hlinks, hwell, hadds.trans hmore⟩
        | some e =>
          cases e with
          | folder => exact ih h hw (hp.child hlost he) hxs.tail
          | file bytes => exact ⟨h, hw, .refl fs⟩
          | link target => exact ⟨h, hw, .refl fs⟩
          | device => exact ⟨h, hw, .refl fs⟩
      · rw [pave_lost hup hlost]
        exact ⟨h, hw, .refl fs⟩

/-- A way that was paved to its end is clear. -/
lemma way_of_pave (h : fs.LinkFree) (hw : fs.WellFormed) (hp : fs.Firm p) (hxs : Fit xs)
    (hpave : (fs.pave p xs).1 = true) : (fs.pave p xs).2.way p xs = .clear := by
  induction xs generalizing fs p with
  | nil => rfl
  | cons name xs ih =>
    by_cases hup : name = ".."
    · subst hup
      rw [pave_up] at hpave ⊢
      rw [way_up]
      exact ih h hw hp.up hxs.tail hpave
    · by_cases hlost : p.lost = 0
      · rw [way_name hup, if_neg (not_not.mpr hlost)]
        rw [pave_name hup hlost] at hpave ⊢
        cases he : fs.get? (p.location ++ [name]) with
        | none =>
          simp only [he] at hpave ⊢
          obtain ⟨hempty, hdot, -⟩ := hxs name (by simp)
          have hset := hw.set (hp.get? hlost) ⟨hempty, hdot, hup⟩ (by simp [he]) .folder
          have hself : (fs.set (p.location ++ [name]) .folder).get? (p.location ++ [name]) = some .folder := by
            rw [get?_set (by simp), if_pos rfl]
          have hfirm := hset.firm_of_folder hself
          have hkept := (pave_keeps (h.set (by simp)) hset hfirm hxs.tail).2.2.keeps _ _ hself
          rw [hkept]
          exact ih (h.set (by simp)) hset hfirm hxs.tail hpave
        | some e =>
          cases e with
          | folder =>
            simp only [he] at hpave ⊢
            have hfirm := hp.child hlost he
            rw [(pave_keeps h hw hfirm hxs.tail).2.2.keeps _ _ he]
            exact ih h hw hfirm hxs.tail hpave
          | file bytes => simp [he] at hpave
          | link target => simp [he] at hpave
          | device => simp [he] at hpave
      · rw [pave_lost hup hlost] at hpave
        cases hpave

/-- A way that could not be paved to its end is stopped by a file, unless it starts in a folder that was
removed. -/
lemma way_of_unpaved (h : fs.LinkFree) (hw : fs.WellFormed) (hp : fs.Firm p) (hxs : Fit xs) (hlost : p.lost = 0)
    (hpave : (fs.pave p xs).1 = false) : (fs.pave p xs).2.way p xs = .stopped := by
  induction xs generalizing fs p with
  | nil => cases hpave
  | cons name xs ih =>
    by_cases hup : name = ".."
    · subst hup
      rw [pave_up] at hpave ⊢
      rw [way_up]
      exact ih h hw hp.up hxs.tail (by simp [Place.up, hlost]) hpave
    · rw [way_name hup, if_neg (not_not.mpr hlost)]
      rw [pave_name hup hlost] at hpave ⊢
      cases he : fs.get? (p.location ++ [name]) with
      | none =>
        simp only [he] at hpave ⊢
        obtain ⟨hempty, hdot, -⟩ := hxs name (by simp)
        have hset := hw.set (hp.get? hlost) ⟨hempty, hdot, hup⟩ (by simp [he]) .folder
        have hself : (fs.set (p.location ++ [name]) .folder).get? (p.location ++ [name]) = some .folder := by
          rw [get?_set (by simp), if_pos rfl]
        have hfirm := hset.firm_of_folder hself
        rw [(pave_keeps (h.set (by simp)) hset hfirm hxs.tail).2.2.keeps _ _ hself]
        exact ih (h.set (by simp)) hset hfirm hxs.tail rfl hpave
      | some e =>
        cases e with
        | folder =>
          simp only [he] at hpave ⊢
          have hfirm := hp.child hlost he
          rw [(pave_keeps h hw hfirm hxs.tail).2.2.keeps _ _ he]
          exact ih h hw hfirm hxs.tail rfl hpave
        | file bytes => simp only [he]
        | link target => simp only [he]
        | device => simp only [he]

/-- What is found on a way without gaps is found there in a larger file system. -/
lemma way_eq_of_keeps (hkeeps : ∀ l e, fs.get? l = some e → fs'.get? l = some e) (hway : fs.way p xs ≠ .gap) :
    fs'.way p xs = fs.way p xs := by
  induction xs generalizing p with
  | nil => rfl
  | cons name xs ih =>
    by_cases hup : name = ".."
    · subst hup
      rw [way_up] at hway
      rw [way_up, way_up]
      exact ih hway
    · rw [way_name hup] at hway
      rw [way_name hup, way_name hup]
      by_cases hlost : p.lost = 0
      · rw [if_neg (not_not.mpr hlost)] at hway
        rw [if_neg (not_not.mpr hlost), if_neg (not_not.mpr hlost)]
        cases he : fs.get? (p.location ++ [name]) with
        | none => simp [he] at hway
        | some e =>
          rw [hkeeps _ e he]
          cases e with
          | folder =>
            simp only [he] at hway
            exact ih hway
          | file bytes => rfl
          | link target => rfl
          | device => rfl
      · rw [if_pos hlost] at hway
        exact absurd rfl hway

/-- A clear way stays clear in a larger file system. -/
lemma way_of_keeps (hkeeps : ∀ l e, fs.get? l = some e → fs'.get? l = some e) (hway : fs.way p xs = .clear) :
    fs'.way p xs = .clear := by
  rw [way_eq_of_keeps hkeeps (by simp [hway]), hway]

/-- Once a way has been paved as far as possible, paving it again changes nothing. -/
lemma pave_again (h : fs.LinkFree) (hw : fs.WellFormed) (hp : fs.Firm p) (hxs : Fit xs) (hlost : p.lost = 0)
    (hkeeps : ∀ l e, (fs.pave p xs).2.get? l = some e → fs'.get? l = some e) :
    fs'.pave p xs = ((fs.pave p xs).1, fs') := by
  cases hpave : (fs.pave p xs).1 with
  | true => exact pave_clear (way_of_keeps hkeeps (way_of_pave h hw hp hxs hpave))
  | false =>
    have hstopped := way_of_unpaved h hw hp hxs hlost hpave
    apply pave_stopped
    rw [way_eq_of_keeps hkeeps (by simp [hstopped]), hstopped]

section Last

variable (h : fs.LinkFree) (hw : fs.WellFormed) (hq : admissible ⟨a, xs ++ [x]⟩ = .ok ())
variable (hxs : Fit (xs ++ [x]))
include h hw hq hxs

/-- The last folder is made, or stands already, if the way to it is clear and no file is in its place. -/
lemma ensureLast_clear (hway : fs.way (fs.startOf a) xs = .clear) :
    fs.ensureLast ⟨a, xs ++ [x]⟩ =
      if (fs.pave ((fs.startOf a).along xs) [x]).1 then .ok (fs.pave ((fs.startOf a).along xs) [x]).2
      else .error (.onPath (if ((fs.startOf a).along xs).lost ≠ 0 then .missing else .taken)
        ⟨a, xs ++ [x]⟩) := by
  have hvacancy := vacancy_clear h hw hq hxs hway
  have hfolder := isFolder_eq h hw hq hxs
  rw [way_append, if_pos hway] at hfolder
  unfold ensureLast makeFolder
  rw [hvacancy]
  generalize (fs.startOf a).along xs = r at hfolder ⊢
  by_cases hup : x = ".."
  · simp [hup, pave, way, settle, bind, Except.bind] at hfolder ⊢
    rw [hfolder]
  · rw [way_name hup] at hfolder
    by_cases hlost : r.lost = 0
    · rw [pave_name hup hlost, if_neg hup, if_neg (not_not.mpr hlost)]
      cases he : fs.get? (r.location ++ [x]) with
      | none => simp [pave, bind, Except.bind, pure, Except.pure]
      | some e =>
        cases e with
        | folder => simp [pave, settle, hfolder, hlost, he, way, bind, Except.bind]
        | file bytes => simp [settle, hfolder, hlost, he, bind, Except.bind]
        | link target => exact absurd he (h.ne_link target)
        | device => simp [settle, hfolder, hlost, he, bind, Except.bind]
    · rw [pave_lost hup hlost, if_neg hup, if_pos hlost]
      simp [hlost, bind, Except.bind]

lemma ensureLast_gap (hway : fs.way (fs.startOf a) xs = .gap) :
    fs.ensureLast ⟨a, xs ++ [x]⟩ = .error (.onPath .missing ⟨a, xs ++ [x]⟩) := by
  unfold ensureLast makeFolder
  rw [vacancy_gap h hw hq hxs hway]
  rfl

lemma ensureLast_stopped (hway : fs.way (fs.startOf a) xs = .stopped) :
    fs.ensureLast ⟨a, xs ++ [x]⟩ = .error (.onPath .notFolder ⟨a, xs ++ [x]⟩) := by
  have hfolder := isFolder_eq h hw hq hxs
  rw [way_append, hway] at hfolder
  unfold ensureLast makeFolder
  rw [vacancy_stopped h hw hq hxs hway]
  simp [settle, hfolder, bind, Except.bind]

end Last

/-- Where a single folder cannot be made, nothing changes. -/
lemma pave_single (hpave : (fs.pave p [x]).1 = false) : (fs.pave p [x]).2 = fs := by
  by_cases hup : x = ".."
  · subst hup
    rfl
  · by_cases hlost : p.lost = 0
    · rw [pave_name hup hlost] at hpave ⊢
      cases he : fs.get? (p.location ++ [x]) with
      | none => simp [he, pave] at hpave
      | some e => cases e <;> rfl
    · rw [pave_lost hup hlost]

/-- What was made is what paving makes, and it is complete if and only if paving comes to its end. -/
structure Paves (made : Except FileError Unit × FileSystem) (paved : Bool × FileSystem) : Prop where
  files : made.2 = paved.2
  done : paved.1 = true → made.1 = .ok ()
  failed : paved.1 = false → ∃ fault q, made.1 = .error (.onPath fault q)

lemma paves_ensureNext (h : fs.LinkFree) (hw : fs.WellFormed) (hq : admissible ⟨a, xs ++ [x]⟩ = .ok ())
    (hxs : Fit (xs ++ [x])) (hway : fs.way (fs.startOf a) xs = .clear) :
    Paves (ensureNext ⟨a, xs ++ [x]⟩ (.ok (), fs)) (fs.pave ((fs.startOf a).along xs) [x]) := by
  have hlast := ensureLast_clear h hw hq hxs hway
  unfold ensureNext
  simp only [hlast]
  cases hpave : (fs.pave ((fs.startOf a).along xs) [x]).1 with
  | true => exact ⟨rfl, fun _ => rfl, fun hfalse => by rw [hpave] at hfalse; cases hfalse⟩
  | false =>
    exact ⟨(pave_single hpave).symm, fun htrue => by (rw [hpave] at htrue; cases htrue),
      fun _ => ⟨_, _, rfl⟩⟩

/-- The first names of a path are made sure of by paving. -/
lemma paves_ensureFirst {zs : List String} (h : fs.LinkFree) (hw : fs.WellFormed)
    (hq : admissible ⟨a, zs⟩ = .ok ()) (hzs : Fit zs) {n : Nat} (hn : n ≤ zs.length) :
    Paves (ensureFirst ⟨a, zs⟩ n fs) (fs.pave (fs.startOf a) (zs.take n)) := by
  induction n with
  | zero =>
    have hfolder : fs.isFolder ⟨a, []⟩ = .ok true := isFolder_eq h hw admissible_anchor (fun _ hx => by cases hx)
    have hlast : fs.ensureLast ⟨a, []⟩ = .ok fs := by
      simp [ensureLast, makeFolder, vacancy, locateLast, admissible_anchor, settle, hfolder, bind,
        Except.bind, pure, Except.pure]
    unfold ensureFirst ensureNext
    simp only [hlast]
    exact ⟨rfl, fun _ => rfl, fun hfalse => by cases hfalse⟩
  | succ n ih =>
    obtain ⟨x, hx⟩ : ∃ x, zs.take (n + 1) = zs.take n ++ [x] :=
      ⟨zs[n], by rw [List.take_succ_eq_append_getElem hn]⟩
    have hxs : Fit (zs.take n ++ [x]) := by
      rw [← hx]
      exact Fit.left (by rwa [List.take_append_drop])
    have hqx : admissible ⟨a, zs.take n ++ [x]⟩ = .ok () := by
      rw [← hx]
      exact admissible_of_append (by rwa [List.take_append_drop])
    have ih := ih (by omega)
    rw [ensureFirst_succ]
    simp only [hx]
    rw [pave_append]
    cases hway : fs.way (fs.startOf a) (zs.take n) with
    | clear =>
      have hnext := paves_ensureNext h hw hqx hxs hway
      rw [pave_clear hway] at ih ⊢
      rw [if_pos rfl]
      -- A folder that was removed takes none: the folders above it are made sure of in vain.
      have hfirst : ensureFirst ⟨a, zs⟩ n fs = (.ok (), fs) := Prod.ext (ih.done rfl) ih.files
      unfold ensureNext at hnext
      cases hlast : fs.ensureLast ⟨a, zs.take n ++ [x]⟩ with
      | ok fs' =>
        simp only [hlast] at hnext
        exact hnext
      | error e =>
        simp only [hlast] at hnext
        dsimp only
        split_ifs
        · rw [hfirst]
          unfold ensureNext
          simp only [hlast]
          exact hnext
        · exact hnext
    | gap =>
      rw [ensureLast_gap h hw hqx hxs hway]
      simp only [FileError.isMissing, if_true]
      obtain ⟨hlinks, hwell, hadds⟩ := pave_keeps h hw (hw.firm_startOf a) hxs.left
      cases hpave : (fs.pave (fs.startOf a) (zs.take n)).1 with
      | true =>
        have hfirst : ensureFirst ⟨a, zs⟩ n fs = (.ok (), (fs.pave (fs.startOf a) (zs.take n)).2) :=
          Prod.ext (ih.done hpave) ih.files
        have hclear := way_of_pave h hw (hw.firm_startOf a) hxs.left hpave
        have hstart := hadds.toExtends.startOf a
        have hnext := paves_ensureNext hlinks hwell hqx hxs (by rw [hstart]; exact hclear)
        rw [hfirst, if_pos rfl]
        rwa [hstart] at hnext
      | false =>
        obtain ⟨fault, r, herror⟩ := ih.failed hpave
        have hfirst : ensureFirst ⟨a, zs⟩ n fs =
            (.error (.onPath fault r), (fs.pave (fs.startOf a) (zs.take n)).2) := Prod.ext herror ih.files
        rw [hfirst, if_neg Bool.false_ne_true]
        exact ⟨rfl, fun htrue => by (rw [hpave] at htrue; cases htrue), fun _ => ⟨fault, r, rfl⟩⟩
    | stopped =>
      rw [ensureLast_stopped h hw hqx hxs hway, pave_stopped hway, if_neg Bool.false_ne_true]
      exact ⟨rfl, fun htrue => by (cases htrue), fun _ => ⟨_, _, rfl⟩⟩

/-- Making sure of a folder is paving the way to it. -/
theorem paves_ensureFolder (h : fs.LinkFree) (hw : fs.WellFormed) (hq : admissible ⟨a, xs⟩ = .ok ())
    (hxs : Fit xs) : Paves (fs.ensureFolder ⟨a, xs⟩) (fs.pave (fs.startOf a) xs) := by
  have hfirst := paves_ensureFirst h hw hq hxs (le_refl xs.length)
  rwa [List.take_length] at hfirst

/-- A path that no file system takes is refused at once. -/
lemma ensureFolder_inadmissible {e : FileError} (hq : admissible ⟨a, xs⟩ = .error e) :
    fs.ensureFolder ⟨a, xs⟩ = (.error e, fs) := by
  have hlen : xs.length = xs.length - 1 + 1 := by
    cases xs with
    | nil =>
      rw [admissible_anchor] at hq
      cases hq
    | cons x xs => simp
  have hlast : fs.ensureLast ⟨a, xs⟩ = .error e ∧ e.isMissing = false := by
    have hstat : fs.stat ⟨a, xs⟩ = .error e := by simp [stat, locate, hq, bind, Except.bind]
    have hmake : fs.makeFolder ⟨a, xs⟩ = .error e := by
      simp [makeFolder, vacancy, locateLast, hq, bind, Except.bind]
    unfold admissible at hq
    split_ifs at hq
    · cases hq
      simp [ensureLast, hmake, FileError.isMissing]
    · cases hq
      simp [ensureLast, hmake, settle, isFolder, ask, hstat, Fault.meansAbsent, FileError.isMissing]
  unfold ensureFolder
  simp only
  rw [hlen, ensureFirst_succ, ← hlen]
  simp only [List.take_length, hlast.1, hlast.2, Bool.false_eq_true, if_false]

/-- New folders can be made one in the other. -/
lemma pave_fresh (hbelow : ∀ y rest, fs.get? (loc ++ y :: rest) = none) (hdots : ".." ∉ xs) :
    (fs.pave ⟨loc, 0⟩ xs).1 = true := by
  induction xs generalizing fs loc with
  | nil => rfl
  | cons x xs ih =>
    have hup : x ≠ ".." := fun he => hdots (by simp [he])
    rw [pave_name hup rfl]
    simp only [hbelow x []]
    refine ih (fun y rest => ?_) (fun hmem => hdots (by simp [hmem]))
    rw [get?_set (by simp), if_neg (by simp), List.append_assoc]
    exact hbelow x (y :: rest)

/-- Without double dots, a file that stands on a way stands before its first gap. -/
lemma stopped_of_pave (hw : fs.WellFormed) (hdots : ".." ∉ xs) (hlost : p.lost = 0)
    (hpave : (fs.pave p xs).1 = false) : fs.way p xs = .stopped := by
  induction xs generalizing p with
  | nil => cases hpave
  | cons x xs ih =>
    have hup : x ≠ ".." := fun he => hdots (by simp [he])
    have hrest : ".." ∉ xs := fun hmem => hdots (by simp [hmem])
    rw [way_name hup, if_neg (not_not.mpr hlost)]
    rw [pave_name hup hlost] at hpave
    cases he : fs.get? (p.location ++ [x]) with
    | none =>
      simp only [he] at hpave
      have hfresh : ((fs.set (p.location ++ [x]) .folder).pave ⟨p.location ++ [x], 0⟩ xs).1 = true := by
        refine pave_fresh (fun y rest => ?_) hrest
        rw [get?_set (by simp), if_neg (by simp)]
        exact hw.vacant_below (by simp [he]) y rest
      rw [hfresh] at hpave
      cases hpave
    | some e =>
      cases e with
      | folder =>
        simp only [he] at hpave
        exact ih hrest rfl hpave
      | file bytes => rfl
      | link target => rfl
      | device => rfl

lemma lost_along (hlost : p.lost = 0) : (p.along xs).lost = 0 := by
  induction xs generalizing p with
  | nil => exact hlost
  | cons x xs ih =>
    by_cases hup : x = ".."
    · subst hup
      rw [along_up]
      exact ih (by simp [Place.up, hlost])
    · rw [along_name hup]
      exact ih rfl

/-- The fault that keeps a folder from being made at a path without double dots. -/
def obstacle (fs : FileSystem) (a : Anchor) (xs : List String) : FileError :=
  if (fs.startOf a).lost ≠ 0 then .onPath .missing ⟨a, xs.take 1⟩
  else .onPath (if fs.way (fs.startOf a) xs.dropLast = .clear then .taken else .notFolder) ⟨a, xs⟩

/-- In a folder that was removed, the first folder on the way is what is missing. -/
lemma ensureFirst_lost (h : fs.LinkFree) (hw : fs.WellFormed) (hq : admissible ⟨a, x :: xs⟩ = .ok ())
    (hxs : Fit (x :: xs)) (hup : x ≠ "..") (hlost : (fs.startOf a).lost ≠ 0) {n : Nat}
    (hn : n ≤ xs.length) :
    ensureFirst ⟨a, x :: xs⟩ (n + 1) fs = (.error (.onPath .missing ⟨a, [x]⟩), fs) := by
  induction n with
  | zero =>
    have hsingle : Fit ([] ++ [x]) := (show Fit ([x] ++ xs) from hxs).left
    have hqx : admissible ⟨a, [] ++ [x]⟩ = .ok () :=
      admissible_of_append (show admissible ⟨a, [x] ++ xs⟩ = .ok () from hq)
    have hlast := ensureLast_clear h hw hqx hsingle rfl
    have hfirst := paves_ensureFirst h hw hq hxs (Nat.zero_le _)
    have hzero : ensureFirst ⟨a, x :: xs⟩ 0 fs = (.ok (), fs) := Prod.ext (hfirst.done rfl) hfirst.files
    rw [Place.along_nil, pave_lost hup hlost, if_neg Bool.false_ne_true, if_pos hlost, List.nil_append] at hlast
    rw [ensureFirst_succ, hzero]
    simp [hlast, FileError.isMissing, ensureNext]
  | succ n ih =>
    obtain ⟨y, hy⟩ : ∃ y, (x :: xs).take (n + 1 + 1) = (x :: xs).take (n + 1) ++ [y] := by
      have hlt : n < xs.length := hn
      exact ⟨xs[n], by rw [List.take_succ_cons, List.take_succ_eq_append_getElem hlt, List.take_succ_cons,
        List.cons_append]⟩
    have hxy : Fit ((x :: xs).take (n + 1) ++ [y]) := by
      rw [← hy]
      exact Fit.left (by rwa [List.take_append_drop])
    have hqy : admissible ⟨a, (x :: xs).take (n + 1) ++ [y]⟩ = .ok () := by
      rw [← hy]
      exact admissible_of_append (by rwa [List.take_append_drop])
    have hway : fs.way (fs.startOf a) ((x :: xs).take (n + 1)) = .gap := by
      rw [List.take_succ_cons, way_name hup, if_pos hlost]
    rw [ensureFirst_succ]
    simp only [hy, ensureLast_gap h hw hqy hxy hway, FileError.isMissing, if_true]
    rw [ih (by omega)]
    rfl

/-- Without double dots in a path, the fault shows which of its folders cannot be made. -/
lemma ensureFolder_error (h : fs.LinkFree) (hw : fs.WellFormed) (hq : admissible ⟨a, xs⟩ = .ok ())
    (hxs : Fit xs) (hdots : ".." ∉ xs) (hpave : (fs.pave (fs.startOf a) xs).1 = false) :
    (fs.ensureFolder ⟨a, xs⟩).1 = .error (fs.obstacle a xs) := by
  unfold ensureFolder obstacle
  by_cases hlost : (fs.startOf a).lost = 0
  · rw [if_neg (not_not.mpr hlost)]
    have hway := stopped_of_pave hw hdots hlost hpave
    rcases List.eq_nil_or_concat xs with rfl | ⟨ys, y, rfl⟩
    · cases hway
    · rw [List.concat_eq_append] at *
      rw [way_append] at hway
      rw [pave_append] at hpave
      simp only [List.length_append, List.length_singleton]
      rw [ensureFirst_succ, List.dropLast_concat]
      have htake : (ys ++ [y]).take (ys.length + 1) = ys ++ [y] := List.take_of_length_le (by simp)
      simp only [htake]
      by_cases hclear : fs.way (fs.startOf a) ys = .clear
      · rw [pave_clear hclear, if_pos rfl] at hpave
        rw [ensureLast_clear h hw hq hxs hclear, hpave, lost_along hlost]
        simp [hclear, FileError.isMissing]
      · rw [if_neg hclear] at hway
        rw [ensureLast_stopped h hw hq hxs hway]
        simp [hclear, FileError.isMissing]
  · rw [if_pos hlost]
    cases xs with
    | nil => cases hpave
    | cons x xs =>
      have hup : x ≠ ".." := fun he => hdots (by simp [he])
      rw [List.length_cons, ensureFirst_lost h hw hq hxs hup hlost (le_refl _)]
      simp

/-- The folders that a way goes through. -/
def trail : Place → List String → List Location
  | _, [] => []
  | p, name :: rest =>
    if name = ".." then trail p.up rest
    else (p.location ++ [name]) :: trail ⟨p.location ++ [name], 0⟩ rest

/-- Something stands at the location that is no folder. -/
def blocked (fs : FileSystem) (loc : Location) : Bool :=
  match fs.get? loc with
  | some .folder => false
  | some _ => true
  | none => false

lemma trail_up : trail p (".." :: xs) = trail p.up xs := by rw [trail, if_pos rfl]

lemma trail_name (hup : name ≠ "..") :
    trail p (name :: xs) = (p.location ++ [name]) :: trail ⟨p.location ++ [name], 0⟩ xs := by
  rw [trail, if_neg hup]

lemma trail_append : trail p (xs ++ ys) = trail p xs ++ trail (p.along xs) ys := by
  induction xs generalizing p with
  | nil => rfl
  | cons x xs ih =>
    rw [List.cons_append]
    by_cases hup : x = ".."
    · subst hup
      rw [trail_up, trail_up, along_up]
      exact ih
    · rw [trail_name hup, trail_name hup, along_name hup, ih, List.cons_append]

/-- Where no file stands, there is a folder once the way has gone on. -/
lemma pave_free (hup : name ≠ "..") (hlost : p.lost = 0) (hfree : fs.blocked (p.location ++ [name]) = false) :
    ∃ made : FileSystem, fs.pave p (name :: xs) = made.pave ⟨p.location ++ [name], 0⟩ xs ∧
      (∀ l, made.get? l = if l = p.location ++ [name] then some .folder else fs.get? l) ∧
      ∀ l, made.blocked l = fs.blocked l := by
  rw [pave_name hup hlost]
  unfold blocked at hfree ⊢
  cases he : fs.get? (p.location ++ [name]) with
  | none =>
    have hget : ∀ l, (fs.set (p.location ++ [name]) .folder).get? l =
        if l = p.location ++ [name] then some .folder else fs.get? l := get?_set (by simp) .folder
    refine ⟨_, rfl, hget, fun l => ?_⟩
    rw [hget]
    split_ifs with hl
    · rw [hl, he]
    · rfl
  | some e =>
    cases e with
    | folder =>
      refine ⟨fs, rfl, fun l => ?_, fun l => rfl⟩
      split_ifs with hl
      · rw [hl, he]
      · rfl
    | file bytes => simp [he] at hfree
    | link target => simp [he] at hfree
    | device => simp [he] at hfree

/-- The same folders are made along a way in two file systems if files stand at the same places of it. -/
theorem pave_agree (hagree : ∀ l ∈ trail p xs, fs'.blocked l = fs.blocked l) :
    ∃ made ⊆ trail p xs, (fs'.pave p xs).1 = (fs.pave p xs).1 ∧
      ((fs.pave p xs).1 = true → made = trail p xs) ∧
      (∀ l, (fs.pave p xs).2.get? l = if l ∈ made then some .folder else fs.get? l) ∧
      ∀ l, (fs'.pave p xs).2.get? l = if l ∈ made then some .folder else fs'.get? l := by
  induction xs generalizing fs fs' p with
  | nil => exact ⟨[], fun _ hl => hl, rfl, fun _ => rfl, fun _ => rfl, fun _ => rfl⟩
  | cons name xs ih =>
    by_cases hup : name = ".."
    · subst hup
      simp only [pave_up, trail_up] at hagree ⊢
      exact ih hagree
    · by_cases hlost : p.lost = 0
      · rw [trail_name hup, List.forall_mem_cons] at hagree
        rw [trail_name hup]
        obtain ⟨hhead, htail⟩ := hagree
        cases hfree : fs.blocked (p.location ++ [name]) with
        | true =>
          have hstop : ∀ {g : FileSystem}, g.blocked (p.location ++ [name]) = true →
              g.pave p (name :: xs) = (false, g) := by
            intro g hg
            rw [pave_name hup hlost]
            unfold blocked at hg
            cases hget : g.get? (p.location ++ [name]) with
            | none => simp [hget] at hg
            | some e =>
              cases e with
              | folder => simp [hget] at hg
              | file bytes => rfl
              | link target => rfl
              | device => rfl
          rw [hstop hfree, hstop (hhead.trans hfree)]
          exact ⟨[], List.nil_subset _, rfl, fun htrue => by (cases htrue), fun _ => rfl, fun _ => rfl⟩
        | false =>
          obtain ⟨g, hpave, hget, hblocked⟩ := @pave_free fs name p xs hup hlost hfree
          obtain ⟨g', hpave', hget', hblocked'⟩ := @pave_free fs' name p xs hup hlost (hhead.trans hfree)
          rw [hpave, hpave']
          obtain ⟨made, hsub, hsame, hall, hmade, hmade'⟩ := @ih g g' ⟨p.location ++ [name], 0⟩
            fun l hl => by rw [hblocked, hblocked', htail l hl]
          have hover : ∀ {v : Option Entry} {l : Location},
              (if l ∈ made then some Entry.folder else if l = p.location ++ [name] then some .folder else v) =
                if l ∈ (p.location ++ [name]) :: made then some .folder else v := by
            intro v l
            simp only [List.mem_cons]
            split_ifs <;> tauto
          refine ⟨(p.location ++ [name]) :: made, List.cons_subset_cons _ hsub, hsame, fun htrue => ?_,
            fun l => ?_, fun l => ?_⟩
          · rw [hall htrue]
          · rw [hmade l, hget l, hover]
          · rw [hmade' l, hget' l, hover]
      · rw [pave_lost hup hlost, pave_lost hup hlost]
        exact ⟨[], List.nil_subset _, rfl, fun htrue => by (cases htrue), fun _ => rfl, fun _ => rfl⟩

end Stubsmith.Files.FileSystem
