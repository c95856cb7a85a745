import Stubsmith.Proofs.Files.Rediscovery

/-!
# What stands at a path

Once folders have been made along a path without a fault, a folder stands at the path, whatever links lead there.
In a well-formed file system a path never leads to a link itself. So a search that begins at something that is there
misses nothing on its way, and what it lacks can only be the working folder.
-/
namespace Stubsmith.Files.FileSystem

variable {fs fs' : FileSystem} {p r : Place} {q : Path} {name : String} {xs : List String}

/-- A name behind others is looked up at the place that those lead to. -/
lemma walk_concat {follow : Place → List String → Except Fault Place} {answer : Except Fault Place}
    (hfollow : ∀ p xs, follow p xs = .ok r → follow p (xs ++ [name]) = answer)
    (hlast : ∀ follow', fs.walk follow' r [name] = answer) (h : fs.walk follow p xs = .ok r) :
    fs.walk follow p (xs ++ [name]) = answer := by
  induction xs generalizing p with
  | nil =>
    cases h
    exact hlast follow
  | cons x xs ih =>
    rw [walk_cons] at h
    rw [List.cons_append, walk_cons]
    split at h
    · next hdots =>
      rw [if_pos hdots]
      split at h
      · exact ih h
      · cases h
      · cases h
    · next hdots =>
      rw [if_neg hdots]
      split at h
      · cases h
      · cases h
      · rw [← List.append_assoc]
        exact hfollow _ _ h
      · exact ih h

lemma resolveNames_concat {links : Nat} {answer : Except Fault Place}
    (hlast : ∀ follow, fs.walk follow r [name] = answer) (h : fs.resolveNames links p xs = .ok r) :
    fs.resolveNames links p (xs ++ [name]) = answer := by
  induction links generalizing p xs with
  | zero => exact walk_concat (fun _ _ hr => by cases hr) hlast h
  | succ links ih => exact walk_concat (fun _ _ hr => ih hr) hlast h

/-- A path leads to the folder that has its last name. -/
lemma stat_of_named (hl : fs.locateLast q = .ok (r, some name))
    (hin : fs.entryIn r name = .ok (some .folder)) : fs.stat q = .ok .folder := by
  obtain ⟨hq, hlast, hup, hto, hfolder⟩ := locateLast_eq_named.mp hl
  obtain ⟨-, -, -, hentry⟩ := entryIn_eq_ok.mp hin
  have hparts : q.parts = q.parts.dropLast ++ [name] :=
    (List.dropLast_append_getLast? name hlast).symm
  rw [stat_eq_ok, hparts]
  by_cases hdots : (name = "" || name = "." || name = "..") = true
  · refine ⟨hq, r, resolveNames_concat (fun follow => ?_) hto, hfolder⟩
    rw [walk_cons, if_pos hdots, hfolder, if_neg hup]
    rfl
  · refine ⟨hq, ⟨r.location ++ [name], 0⟩, resolveNames_concat (fun follow => ?_) hto, ?_⟩
    · rw [walk_cons, if_neg hdots, hin]
      rfl
    · rw [entryAt?, if_pos rfl, hentry]

lemma isFolder_makeFolder (h : fs.makeFolder q = .ok fs') : fs'.isFolder q = .ok true := by
  have hextends := (addsFolders_makeFolder h).toExtends
  unfold makeFolder at h
  cases hv : fs.vacancy q with
  | error err => simp [hv, bind, Except.bind] at h
  | ok loc =>
    simp only [hv, bind, Except.bind, pure, Except.pure, Except.ok.injEq] at h
    subst h
    obtain ⟨r, name, hl, hin, rfl⟩ := vacancy_eq_ok hv
    obtain ⟨hlost, hfolder, hname, -⟩ := entryIn_eq_ok.mp hin
    refine isFolder_eq_true.mpr (stat_of_named (hextends.locateLast hl) (entryIn_eq_ok.mpr ?_))
    exact ⟨hlost, hextends.keeps _ _ hfolder, hname, by rw [get?_set (by simp), if_pos rfl]⟩

lemma isFolder_ensureLast (h : fs.ensureLast q = .ok fs') : fs'.isFolder q = .ok true := by
  unfold ensureLast at h
  split at h
  · next hm =>
    cases h
    exact isFolder_makeFolder hm
  · cases h
  · cases h
  · unfold settle at h
    split at h
    · next hfolder =>
      cases h
      exact hfolder
    · cases h
    · cases h

lemma isFolder_ensureNext {made : Except FileError Unit × FileSystem} (h : (ensureNext q made).1 = .ok ()) :
    (ensureNext q made).2.isFolder q = .ok true := by
  obtain ⟨result, fs⟩ := made
  cases result with
  | error err => cases h
  | ok u =>
    unfold ensureNext at h ⊢
    dsimp only at h ⊢
    split at h
    · next hl => exact isFolder_ensureLast hl
    · cases h

lemma isFolder_ensureFirst {n : Nat} (h : (ensureFirst q n fs).1 = .ok ()) :
    (ensureFirst q n fs).2.isFolder { q with parts := q.parts.take n } = .ok true := by
  cases n with
  | zero => exact isFolder_ensureNext h
  | succ n =>
    rw [ensureFirst_succ] at h ⊢
    split at h
    · next hl => exact isFolder_ensureLast hl
    · split_ifs at h ⊢
      exact isFolder_ensureNext h

/-- Where folders have been made without a fault a folder stands. -/
theorem isFolder_ensureFolder (h : (fs.ensureFolder q).1 = .ok ()) :
    (fs.ensureFolder q).2.isFolder q = .ok true := by
  have hfirst := isFolder_ensureFirst h
  rwa [List.take_length] at hfirst

/-- The place is a folder below folders, a file or a device. -/
def Settled (fs : FileSystem) (p : Place) : Prop :=
  fs.Firm p ∨ (∃ bytes, fs.entryAt? p = some (.file bytes)) ∨ fs.entryAt? p = some .device

lemma Settled.firm (h : fs.Settled p) (hp : fs.entryAt? p = some .folder) : fs.Firm p := by
  rcases h with hfirm | ⟨bytes, hfile⟩ | hdevice
  · exact hfirm
  · rw [hp] at hfile
    cases hfile
  · rw [hp] at hdevice
    cases hdevice

/-- From such a place, names lead to such a place, links followed. -/
lemma WellFormed.settled_walk (h : fs.WellFormed) {follow : Place → List String → Except Fault Place}
    (hfollow : ∀ p xs, fs.Firm p → follow p xs = .ok r → fs.Settled r) (hp : fs.Settled p)
    (hw : fs.walk follow p xs = .ok r) : fs.Settled r := by
  induction xs generalizing p with
  | nil =>
    cases hw
    exact hp
  | cons name rest ih =>
    rw [walk_cons] at hw
    split at hw
    · split at hw
      · next hfolder =>
        have hfirm := hp.firm hfolder
        refine ih (Or.inl ?_) hw
        split_ifs
        · exact hfirm.up
        · exact hfirm
      · cases hw
      · cases hw
    · split at hw
      · cases hw
      · cases hw
      · next target hin =>
        obtain ⟨hlost, hfolder, -, -⟩ := entryIn_eq_ok.mp hin
        have hfirm : fs.Firm p := hp.firm (by rwa [entryAt?, if_pos hlost])
        refine hfollow _ _ ?_ hw
        split_ifs
        · exact h.firm_of_folder rfl
        · exact hfirm
      · next e hno hin =>
        obtain ⟨hlost, hfolder, -, hentry⟩ := entryIn_eq_ok.mp hin
        have hfirm : fs.Firm p := hp.firm (by rwa [entryAt?, if_pos hlost])
        refine ih ?_ hw
        cases e with
        | folder => exact Or.inl (hfirm.child hlost hentry.symm)
        | file bytes => exact Or.inr (Or.inl ⟨bytes, by rw [entryAt?, if_pos rfl, hentry]⟩)
        | link target => exact absurd rfl (hno target)
        | device => exact Or.inr (Or.inr (by rw [entryAt?, if_pos rfl, hentry]))

lemma WellFormed.settled_resolveNames (h : fs.WellFormed) {links : Nat} (hp : fs.Firm p)
    (hr : fs.resolveNames links p xs = .ok r) : fs.Settled r := by
  induction links generalizing p xs with
  | zero => exact h.settled_walk (fun _ _ _ hr => by cases hr) (Or.inl hp) hr
  | succ links ih => exact h.settled_walk (fun _ _ hp hr => ih hp hr) (Or.inl hp) hr

/-- A path leads to a folder, a file or a device. -/
theorem WellFormed.stat_cases (h : fs.WellFormed) {e : Entry} (hs : fs.stat q = .ok e) :
    e = .folder ∨ (∃ bytes, e = .file bytes) ∨ e = .device := by
  obtain ⟨-, place, hto, he⟩ := stat_eq_ok.mp hs
  rcases h.settled_resolveNames (h.firm_startOf q.anchor) hto with hfirm | ⟨bytes, hfile⟩ | hdevice
  · rw [hfirm.folder] at he
    exact Or.inl (Option.some.inj he).symm
  · rw [hfile] at he
    exact Or.inr (Or.inl ⟨bytes, (Option.some.inj he).symm⟩)
  · rw [hdevice] at he
    exact Or.inr (Or.inr (Option.some.inj he).symm)

lemma stat_of_exists (h : fs.exists? q = .ok true) : ∃ e, fs.stat q = .ok e := by
  unfold exists? ask at h
  split at h
  · next e hstat => exact ⟨e, hstat⟩
  · split_ifs at h
    cases h
  · cases h

/-- A question is never left open because something is missing. -/
lemma isMissing_ask {question : Entry → Bool} {e : FileError} (h : fs.ask q question = .error e) :
    e.isMissing = false := by
  unfold ask at h
  split at h
  · cases h
  · next fault path _ =>
    split_ifs at h with habsent
    cases h
    cases fault <;> simp_all [FileError.isMissing, Fault.meansAbsent]
  · cases h

lemma list_of_folder (h : fs.stat q = .ok .folder) : ∃ names, fs.list q = .ok names := by
  obtain ⟨hq, place, hto, he⟩ := stat_eq_ok.mp h
  refine ⟨if place.lost = 0 then fs.names place.location else [], ?_⟩
  simp [list, locate, hq, hto, he, bind, Except.bind, blame, Except.mapError]

/-- The search came to a fault, and not because something was missing. -/
def Faulty (e : DiscoveryError) : Prop := ∃ fault, e = .file fault ∧ fault.isMissing = false

lemma faulty_candidates {descend : Path → Discovered} {recursive : Bool} {ps : List Path} {e : DiscoveryError}
    (hd : ∀ p, fs.stat p = .ok .folder → ∀ e, (descend p).result = .error e → Faulty e)
    (h : (fs.candidates descend recursive ps).result = .error e) : Faulty e := by
  induction ps with
  | nil => cases h
  | cons p ps ih =>
    have hfirst : ∀ e, (fs.candidate descend recursive p).result = .error e → Faulty e := by
      intro e he
      unfold candidate at he
      split at he
      · next hask =>
        cases he
        exact ⟨_, rfl, isMissing_ask hask⟩
      · cases he
      · split at he
        · next hask =>
          cases he
          exact ⟨_, rfl, isMissing_ask hask⟩
        · next below hask =>
          split_ifs at he with hbelow
          obtain ⟨rfl, -⟩ := Bool.and_eq_true_iff.mp hbelow
          exact hd p (isFolder_eq_true.mp hask) e he
    rw [candidates, Discovered.andThen] at h
    cases hresult : (fs.candidate descend recursive p).result with
    | error e' =>
      rw [hresult] at h
      cases h
      exact hfirst e hresult
    | ok files =>
      rw [hresult] at h
      cases hrest : (fs.candidates descend recursive ps).result with
      | error e' =>
        simp only [hrest, Except.map] at h
        cases h
        exact ih hrest
      | ok more =>
        simp only [hrest, Except.map] at h
        cases h

/-- A search in a folder that is there misses nothing. -/
lemma faulty_filesIn {recursive : Bool} {levels : Nat} {folder : Path} {e : DiscoveryError}
    (hf : fs.stat folder = .ok .folder) (h : (fs.filesIn recursive levels folder).result = .error e) :
    Faulty e := by
  induction levels generalizing folder e with
  | zero =>
    cases h
    exact ⟨_, rfl, rfl⟩
  | succ levels ih =>
    obtain ⟨names, hlist⟩ := list_of_folder hf
    rw [filesIn, hlist] at h
    exact faulty_candidates (fun p hp e he => ih hp he) h

lemma lost_of_isAdrift (h : fs.isAdrift q = true) : fs.lost ≠ 0 := by
  intro hlost
  unfold isAdrift at h
  cases hanchor : q.anchor with
  | here => simp [hanchor, startOf, hlost] at h
  | root => simp [hanchor, startOf] at h
  | twinRoot => simp [hanchor, startOf] at h

lemma lost_of_realPath (h : fs.realPath q = .error .workingFolderLost) : fs.lost ≠ 0 := by
  unfold realPath at h
  dsimp only at h
  generalize (fs.realNames fs.linkDepth ⟨if q.isAbsolute then .root else .here, []⟩ q.parts []).path = reached at h
  split_ifs at h with hnull hadrift
  · cases h
  · exact lost_of_isAdrift hadrift
  · split at h
    · cases h
    · cases h

/-- What a search from a folder or a file that is there can lack is the working folder. -/
theorem discover_eq_error {recursive : Bool} {e : DiscoveryError}
    (hs : fs.stat q = .ok .folder ∨ ∃ bytes, fs.stat q = .ok (.file bytes))
    (h : (fs.discover q recursive).result = .error e) :
    Faulty e ∨ ∃ real, e = .real real ∧ (real = .workingFolderLost → fs.lost ≠ 0) := by
  have hsearch : ∀ label search, (∀ e, (search ()).result = .error e → Faulty e) →
      (fs.discoverAs q label search).result = .error e →
      Faulty e ∨ ∃ real, e = .real real ∧ (real = .workingFolderLost → fs.lost ≠ 0) := by
    intro label search hin he
    unfold discoverAs at he
    split at he
    · next real hreal =>
      cases he
      exact Or.inr ⟨real, rfl, fun hlost => lost_of_realPath (hlost ▸ hreal)⟩
    · exact Or.inl (hin e he)
  rcases hs with hfolder | ⟨bytes, hfile⟩
  · rw [discover_of_folder hfolder] at h
    exact hsearch _ _ (fun e he => faulty_filesIn hfolder he) h
  · rw [discover_of_file hfile] at h
    exact hsearch _ _ (fun e he => by cases he) h

end Stubsmith.Files.FileSystem
