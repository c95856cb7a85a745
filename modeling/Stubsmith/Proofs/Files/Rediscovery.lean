import Stubsmith.Proofs.Files.Discovery
import Stubsmith.Proofs.Files.LinkFree

/-!
# Searching again

Whatever a search finds lies below the place where it began. A folder in which there are only folders
contributes nothing to a search, so a search that comes to its end finds what it would find without such
folders.
-/
namespace Stubsmith.Files

/-- The path leads from a folder to something below it. -/
def Below (folder q : Path) : Prop :=
  ∃ names : List String, names ≠ [] ∧ (∀ x ∈ names, IsPlain x) ∧ q = ⟨folder.anchor, folder.parts ++ names⟩

lemma Path.Proper.of_below {folder q : Path} (hfolder : folder.Proper) (h : q = folder ∨ Below folder q) :
    q.Proper := by
  rcases h with rfl | ⟨names, -, hplain, rfl⟩
  · exact hfolder
  · intro name hname
    rcases List.mem_append.mp hname with hname | hname
    · exact hfolder name hname
    · exact ⟨(hplain name hname).1, (hplain name hname).2.1⟩

namespace Entry

variable {e e' : Entry}

/-- An entry apart from the contents of a file. -/
def emptied : Entry → Entry
  | file _ => file []
  | other => other

lemma eq_or_files (h : e'.emptied = e.emptied) : e' = e ∨ ∃ bytes bytes', e = file bytes ∧ e' = file bytes' := by
  cases e with
  | file bytes => cases e' <;> simp [emptied] at h ⊢
  | folder => cases e' <;> simp [emptied] at h ⊢
  | link target => cases e' <;> simp [emptied] at h ⊢; exact h
  | device => cases e' <;> simp [emptied] at h ⊢

lemma emptied_eq_folder : e.emptied = .folder ↔ e = .folder := by
  cases e <;> simp [emptied]

end Entry

lemma Discovered.andThen_eq_ok {d : Discovered} {next : Unit → Discovered} {files : List Path} :
    (d.andThen next).result = .ok files ↔
      ∃ first others, d.result = .ok first ∧ (next ()).result = .ok others ∧ files = first ++ others := by
  unfold Discovered.andThen
  cases d.result with
  | error e => simp
  | ok first =>
    cases hnext : (next ()).result with
    | error e => simp [Except.map, hnext]
    | ok others => simp [Except.map, hnext, eq_comm]

namespace FileSystem

variable {fs fs' : FileSystem} {loc : Location} {x : String} {e e' : Entry} {p : Place} {q : Path}
variable {a : Anchor} {xs names : List String} {recursive : Bool} {files : List Path}

lemma LinkFree.list_eq_ok (h : fs.LinkFree) : fs.list q = .ok names ↔ admissible q = .ok () ∧
    ∃ p, fs.pass (fs.startOf q.anchor) q.parts = .ok p ∧ fs.entryAt? p = some .folder ∧
      names = if p.lost = 0 then fs.names p.location else [] := by
  unfold list locate
  rw [h.resolveNames_eq]
  cases admissible q with
  | error e => simp [bind, Except.bind]
  | ok u =>
    cases fs.pass (fs.startOf q.anchor) q.parts with
    | error fault => simp [bind, Except.bind, blame, Except.mapError]
    | ok p =>
      cases he : fs.entryAt? p with
      | none => simp [bind, Except.bind, blame, Except.mapError, he]
      | some e => cases e <;> simp [bind, Except.bind, blame, Except.mapError, he, eq_comm]

/-- The names in a folder are plain. -/
lemma plain_of_list (h : fs.LinkFree) (hw : fs.WellFormed) (hlist : fs.list q = .ok names)
    (hx : x ∈ names) : IsPlain x := by
  obtain ⟨-, p, -, -, rfl⟩ := h.list_eq_ok.mp hlist
  split_ifs at hx
  · obtain ⟨e, he⟩ := Option.isSome_iff_exists.mp ((mem_names hw).mp hx)
    exact hw.plain_of_child he
  · cases hx

/-- What is found in a folder lies below it. -/
lemma below_filesIn (h : fs.LinkFree) (hw : fs.WellFormed) (levels : Nat) (folder : Path) :
    (fs.filesIn recursive levels folder).All (Below folder) := by
  refine all_filesIn_of (fun folder names x hlist hx => ?_) levels folder
  have hplain := plain_of_list h hw hlist hx
  refine ⟨⟨[x], by simp, by simpa using hplain, rfl⟩, ?_⟩
  rintro q ⟨more, -, hmore, rfl⟩
  exact ⟨x :: more, by simp, by simpa using ⟨hplain, hmore⟩, by simp [Path.child]⟩

/-- Every input is the root or lies below it. -/
theorem below_discover (h : fs.LinkFree) (hw : fs.WellFormed) (root : Path) :
    (fs.discover root recursive).All fun q => q = root ∨ Below root q :=
  all_discover_of (Or.inl rfl) fun files hfound q hq =>
    Or.inr (below_filesIn h hw _ root files hfound q hq)

/-- A folder in which there are only folders contributes nothing. -/
lemma filesIn_barren (h : fs.LinkFree) (hw : fs.WellFormed) {levels : Nat}
    (hpass : fs.pass (fs.startOf a) xs = .ok ⟨loc, 0⟩)
    (hbarren : ∀ l e, loc <+: l → fs.get? l = some e → e = .folder)
    (hfound : (fs.filesIn recursive levels ⟨a, xs⟩).result = .ok files) : files = [] := by
  refine List.eq_nil_iff_forall_not_mem.mpr fun q hq => ?_
  obtain ⟨names, -, hplain, rfl⟩ := below_filesIn h hw levels ⟨a, xs⟩ files hfound q hq
  obtain ⟨bytes, hstat⟩ := isFile_eq_true.mp (all_filesIn levels ⟨a, xs⟩ files hfound _ hq)
  obtain ⟨-, r, hr, hentry⟩ := stat_eq_ok.mp hstat
  rw [h.resolveNames_eq, pass_append, hpass] at hr
  have hend := along_of_pass (fun x hx => ⟨(hplain x hx).1, (hplain x hx).2.1⟩) hr
  rw [along_plain fun hmem => (hplain _ hmem).2.2 rfl] at hend
  subst hend
  have hfolder := hbarren (loc ++ names) (.file bytes) (List.prefix_append loc names) (by simpa [entryAt?] using hentry)
  cases hfolder

/-- At or below a location, the second file system has what the first has, apart from the contents of
files, and besides at most more folders. -/
structure Gains (fs fs' : FileSystem) (loc : Location) : Prop where
  keeps : ∀ l e, loc <+: l → fs.get? l = some e → ∃ e', fs'.get? l = some e' ∧ e'.emptied = e.emptied
  folders : ∀ l e', loc <+: l → fs'.get? l = some e' → (∃ e, fs.get? l = some e) ∨ e' = .folder

lemma Gains.child (h : Gains fs fs' loc) (x : String) : Gains fs fs' (loc ++ [x]) where
  keeps := fun l e hl => h.keeps l e ((List.prefix_append loc [x]).trans hl)
  folders := fun l e hl => h.folders l e ((List.prefix_append loc [x]).trans hl)

/-- Where nothing stood there are only folders. -/
lemma Gains.barren (h : Gains fs fs' loc) (hw : fs.WellFormed) (hnone : fs.get? loc = none) :
    ∀ l e, loc <+: l → fs'.get? l = some e → e = .folder := by
  rintro l e ⟨rest, rfl⟩ he
  rcases h.folders _ e (List.prefix_append loc rest) he with ⟨old, hold⟩ | hfolder
  · cases rest with
    | nil =>
      rw [List.append_nil, hnone] at hold
      cases hold
    | cons y rest =>
      rw [hw.vacant_below (by simp [hnone]) y rest] at hold
      cases hold
  · exact hfolder

/-- Whether a name can be asked about. -/
def askable (q : Path) (x : String) : Except FileError Unit := do
  admissible q
  if x.utf8ByteSize > nameLimit then .error (.onPath .nameTooLong q) else .ok ()

lemma askable_eq_ok : askable q x = .ok () ↔ admissible q = .ok () ∧ x.utf8ByteSize ≤ nameLimit := by
  unfold askable
  cases admissible q with
  | error e => simp [bind, Except.bind]
  | ok u => simp [bind, Except.bind]

lemma pass_snoc (hpass : fs.pass (fs.startOf a) xs = .ok p) :
    fs.pass (fs.startOf a) (xs ++ [x]) = fs.step p x := by
  rw [pass_append, hpass]
  change fs.pass p [x] = _
  rw [pass_cons]
  cases fs.step p x with
  | error fault => rfl
  | ok r => rfl

/-- What stands in a folder can be gone to. -/
lemma pass_child (hpass : fs.pass (fs.startOf a) xs = .ok ⟨loc, 0⟩) (hfolder : fs.get? loc = some .folder)
    (hx : IsPlain x) (hsize : x.utf8ByteSize ≤ nameLimit) (he : fs.get? (loc ++ [x]) = some e) :
    fs.pass (fs.startOf a) (xs ++ [x]) = .ok ⟨loc ++ [x], 0⟩ := by
  obtain ⟨hempty, hdot, hup⟩ := hx
  have hfit : Fit (x :: []) := fun y hy => by
    rw [List.mem_singleton.mp hy]
    exact ⟨hempty, hdot, hsize⟩
  rw [pass_snoc hpass, step_name (by simpa [entryAt?] using hfolder) hfit hup]
  simp [he]

/-- What stands in a folder is found under its name, if the name can be asked about. -/
lemma stat_child (h : fs.LinkFree) (hpass : fs.pass (fs.startOf a) xs = .ok ⟨loc, 0⟩)
    (hfolder : fs.get? loc = some .folder) (hx : IsPlain x) (he : fs.get? (loc ++ [x]) = some e) :
    fs.stat ⟨a, xs ++ [x]⟩ = (askable ⟨a, xs ++ [x]⟩ x).map fun _ => e := by
  obtain ⟨hempty, hdot, hup⟩ := hx
  have hdots : ¬ (x = "" || x = "." || x = "..") = true := by simp [hempty, hdot, hup]
  unfold stat locate askable
  rw [h.resolveNames_eq, pass_snoc hpass, step, if_neg hdots]
  cases admissible ⟨a, xs ++ [x]⟩ with
  | error e => rfl
  | ok u =>
    by_cases hlong : x.utf8ByteSize > nameLimit
    · simp [entryIn, hfolder, hlong, bind, Except.bind, blame, Except.mapError, Except.map]
    · simp [entryIn, hfolder, hlong, he, entryAt?, bind, Except.bind, blame, Except.mapError, Except.map]

/-- Two entries of one kind under one name are candidates alike. -/
lemma candidate_of_kind {asked : Except FileError Unit} {descend descend' : Path → Discovered}
    (hs : fs.stat q = asked.map fun _ => e) (hs' : fs'.stat q = asked.map fun _ => e')
    (hkind : e'.emptied = e.emptied)
    (hdescend : asked = .ok () → e = .folder → (descend' q).result = .ok files →
      (descend q).result = .ok files)
    (hfound : (fs'.candidate descend' recursive q).result = .ok files) :
    (fs.candidate descend recursive q).result = .ok files := by
  unfold candidate isFile isFolder ask at hfound ⊢
  rw [hs'] at hfound
  rw [hs]
  cases asked with
  | error err =>
    cases err with
    | nullCharacter => exact hfound
    | onPath fault r =>
      simp only [Except.map] at hfound ⊢
      split_ifs at hfound ⊢
      exact hfound
  | ok u =>
    rcases Entry.eq_or_files hkind with rfl | ⟨bytes, bytes', rfl, rfl⟩
    · cases e' with
      | folder =>
        cases recursive with
        | false => exact hfound
        | true => exact hdescend rfl rfl hfound
      | file bytes => exact hfound
      | link target => exact hfound
      | device => exact hfound
    · exact hfound

/-- A folder in which there are only folders is a candidate that contributes nothing. -/
lemma candidate_barren {levels : Nat} (h : fs.LinkFree) (hw : fs.WellFormed)
    (hpass : fs.pass (fs.startOf a) xs = .ok ⟨loc, 0⟩) (hfolder : fs.get? loc = some .folder)
    (he : fs.get? (loc ++ [x]) = some .folder)
    (hbarren : ∀ l e, loc ++ [x] <+: l → fs.get? l = some e → e = .folder)
    (hfound : (fs.candidate (fs.filesIn recursive levels) recursive ⟨a, xs ++ [x]⟩).result = .ok files) :
    files = [] := by
  have hplain := hw.plain_of_child he
  have hstat := stat_child h hpass hfolder hplain he
  unfold candidate isFile isFolder ask at hfound
  rw [hstat] at hfound
  cases hasked : askable ⟨a, xs ++ [x]⟩ x with
  | error err =>
    rw [hasked] at hfound
    cases err with
    | nullCharacter =>
      cases hfound
      rfl
    | onPath fault r =>
      simp only [Except.map] at hfound
      split_ifs at hfound
      cases hfound
      rfl
  | ok u =>
    rw [hasked] at hfound
    cases recursive with
    | false =>
      cases hfound
      rfl
    | true =>
      have hto := pass_child hpass hfolder hplain (askable_eq_ok.mp hasked).2 he
      exact filesIn_barren h hw hto hbarren hfound

/-- Candidates that contribute nothing may be left out. -/
lemma candidates_filter {descend descend' : Path → Discovered} {keep : String → Bool} {folder : Path}
    (hkeep : ∀ x ∈ names, keep x = true → ∀ files,
      (fs'.candidate descend' recursive (folder.child x)).result = .ok files →
        (fs.candidate descend recursive (folder.child x)).result = .ok files)
    (hdrop : ∀ x ∈ names, keep x = false → ∀ files,
      (fs'.candidate descend' recursive (folder.child x)).result = .ok files → files = [])
    (hfound : (fs'.candidates descend' recursive (names.map folder.child)).result = .ok files) :
    (fs.candidates descend recursive ((names.filter keep).map folder.child)).result = .ok files := by
  induction names generalizing files with
  | nil => exact hfound
  | cons x names ih =>
    rw [List.forall_mem_cons] at hkeep hdrop
    rw [List.map_cons, candidates, Discovered.andThen_eq_ok] at hfound
    obtain ⟨first, others, hfirst, hothers, rfl⟩ := hfound
    have hrest := ih hkeep.2 hdrop.2 hothers
    cases hx : keep x with
    | true =>
      rw [List.filter_cons_of_pos hx, List.map_cons, candidates, Discovered.andThen_eq_ok]
      exact ⟨first, others, hkeep.1 hx first hfirst, hrest, rfl⟩
    | false =>
      rw [List.filter_cons_of_neg (by simp [hx]), hdrop.1 hx first hfirst, List.nil_append]
      exact hrest

/-- The names in a folder are among those in it after more folders have been made. -/
lemma names_of_gains (hw : fs.WellFormed) (hw' : fs'.WellFormed) (hgains : Gains fs fs' loc) :
    fs.names loc = (fs'.names loc).filter fun x => (fs.get? (loc ++ [x])).isSome := by
  refine eq_of_ordered (names_ordered hw) ((names_ordered hw').filter _) fun x => ?_
  rw [List.mem_filter, mem_names hw, mem_names hw']
  constructor
  · intro hsome
    obtain ⟨e, he⟩ := Option.isSome_iff_exists.mp hsome
    obtain ⟨e', he', -⟩ := hgains.keeps _ e (List.prefix_append loc [x]) he
    exact ⟨by simp [he'], hsome⟩
  · exact fun hboth => hboth.2

section Search

variable (h : fs.LinkFree) (hw : fs.WellFormed) (h' : fs'.LinkFree) (hw' : fs'.WellFormed)
variable (hstart : fs'.startOf a = fs.startOf a)
include h hw h' hw' hstart

/-- A search of a folder that comes to its end finds what it would find without the new folders. -/
theorem filesIn_of_gains {levels : Nat} (hpass : fs.pass (fs.startOf a) xs = .ok p)
    (hpass' : fs'.pass (fs.startOf a) xs = .ok p) (hfolder : fs.entryAt? p = some .folder)
    (hfolder' : fs'.entryAt? p = some .folder) (hgains : Gains fs fs' p.location)
    (hfound : (fs'.filesIn recursive levels ⟨a, xs⟩).result = .ok files) :
    (fs.filesIn recursive levels ⟨a, xs⟩).result = .ok files := by
  induction levels generalizing xs p files with
  | zero => exact hfound
  | succ levels ih =>
    have hlist : ∀ {g : FileSystem}, g.LinkFree → g.startOf a = fs.startOf a →
        g.pass (fs.startOf a) xs = .ok p → g.entryAt? p = some .folder → admissible ⟨a, xs⟩ = .ok () →
        g.list ⟨a, xs⟩ = .ok (if p.lost = 0 then g.names p.location else []) := by
      intro g hg hsame hto hin hq
      exact hg.list_eq_ok.mpr ⟨hq, p, by rw [hsame]; exact hto, hin, rfl⟩
    unfold filesIn at hfound ⊢
    cases hq : admissible ⟨a, xs⟩ with
    | error err =>
      have hnone : fs'.list ⟨a, xs⟩ = .error err := by simp [list, locate, hq, bind, Except.bind]
      rw [hnone] at hfound
      cases hfound
    | ok u =>
      rw [hlist h' hstart hpass' hfolder' hq] at hfound
      rw [hlist h rfl hpass hfolder hq]
      by_cases hlost : p.lost = 0
      · obtain ⟨loc, lost⟩ := p
        simp only at hlost
        subst hlost
        simp only [if_true] at hfound ⊢
        have hin : fs.get? loc = some .folder := by simpa [entryAt?] using hfolder
        have hin' : fs'.get? loc = some .folder := by simpa [entryAt?] using hfolder'
        have hpass'' : fs'.pass (fs'.startOf a) xs = .ok ⟨loc, 0⟩ := by rwa [hstart]
        rw [names_of_gains hw hw' hgains]
        refine candidates_filter (fun x _ hx found hone => ?_) (fun x hx hnew found hone => ?_) hfound
        · obtain ⟨e, he⟩ := Option.isSome_iff_exists.mp hx
          obtain ⟨e', he', hkind⟩ := hgains.keeps _ e (List.prefix_append loc [x]) he
          have hplain := hw.plain_of_child he
          refine candidate_of_kind (stat_child h hpass hin hplain he) (stat_child h' hpass'' hin' hplain he')
            hkind (fun hasked hdown => ?_) hone
          -- The folder is in both file systems, so the search goes on in both.
          have hsize := (askable_eq_ok.mp hasked).2
          have hto := pass_child hpass hin hplain hsize he
          have hto' := pass_child hpass'' hin' hplain hsize he'
          rw [hstart] at hto'
          rw [hdown] at he hkind
          rw [Entry.emptied_eq_folder.mp hkind] at he'
          exact ih hto hto' (by simpa [entryAt?] using he) (by simpa [entryAt?] using he') (hgains.child x)
        · have hnone : fs.get? (loc ++ [x]) = none := by simpa using hnew
          have hbarren := (hgains.child x).barren hw hnone
          obtain ⟨e', he'⟩ := Option.isSome_iff_exists.mp ((mem_names hw').mp hx)
          rw [hbarren _ e' (List.prefix_refl _) he'] at he'
          exact candidate_barren h' hw' hpass'' hin' he' hbarren hone
      · rw [if_neg hlost] at hfound ⊢
        exact hfound

end Search

lemma LinkFree.entryAt?_ne_link (h : fs.LinkFree) (target : String) :
    fs.entryAt? p ≠ some (.link target) := by
  unfold entryAt?
  split_ifs
  · exact h.ne_link target
  · simp

lemma discover_of_folder (hstat : fs.stat q = .ok .folder) : fs.discover q recursive =
    fs.discoverAs q "Loaded directory. Path = " fun _ => fs.filesIn recursive pathLimit q := by
  simp [discover, isFile, isFolder, ask, hstat]

lemma discover_of_file {bytes : Text.Bytes} (hstat : fs.stat q = .ok (.file bytes)) :
    fs.discover q recursive = fs.discoverAs q "Loaded single file. Path = " fun _ => ⟨.ok [q], []⟩ := by
  simp [discover, isFile, ask, hstat]

/-- Nothing can be searched at a device. -/
lemma discover_of_device (hstat : fs.stat q = .ok .device) :
    fs.discover q recursive = ⟨.error (.missing q), []⟩ := by
  simp [discover, isFile, isFolder, ask, hstat]

/-- A search that comes to its end began at something. -/
lemma stat_of_discover (hfound : (fs.discover q recursive).result = .ok files) : ∃ e, fs.stat q = .ok e := by
  unfold discover isFile isFolder ask at hfound
  cases hstat : fs.stat q with
  | ok e => exact ⟨e, rfl⟩
  | error err =>
    rw [hstat] at hfound
    cases err with
    | nullCharacter => cases hfound
    | onPath fault r =>
      dsimp only at hfound
      split_ifs at hfound

lemma exists_of_discover (hfound : (fs.discover q recursive).result = .ok files) :
    fs.exists? q = .ok true := by
  obtain ⟨e, hstat⟩ := stat_of_discover hfound
  simp [exists?, ask, hstat]

lemma discoverAs_eq_ok {label : String} {search : Unit → Discovered} :
    (fs.discoverAs q label search).result = .ok files ↔
      (∃ real, fs.realPath q = .ok real) ∧ (search ()).result = .ok files := by
  unfold discoverAs
  cases fs.realPath q with
  | error e => simp
  | ok real => simp

/-- Whether there is a real path depends on the working folder alone. -/
lemma realPath_of_startOf (h : fs.LinkFree) (h' : fs'.LinkFree) (hq : admissible q = .ok ())
    (hstart : fs'.startOf q.anchor = fs.startOf q.anchor) (hreal : ∃ real, fs'.realPath q = .ok real) :
    ∃ real, fs.realPath q = .ok real := by
  have hnull := (admissible_eq_ok.mp hq).1
  cases hadrift : fs.isAdrift q with
  | false => exact (h.realPath hnull).2 hadrift
  | true =>
    obtain ⟨real, hreal⟩ := hreal
    have hlost : fs'.isAdrift q = true := by rwa [isAdrift, hstart]
    rw [(h'.realPath hnull).1 hlost] at hreal
    cases hreal

/-- A search that comes to its end finds what it would find without the new folders. -/
theorem discover_of_gains (h : fs.LinkFree) (hw : fs.WellFormed) (h' : fs'.LinkFree) (hw' : fs'.WellFormed)
    (hstart : fs'.startOf a = fs.startOf a) (hxs : Path.Proper ⟨a, xs⟩) (hstat : fs.stat ⟨a, xs⟩ = .ok e)
    (hstat' : fs'.stat ⟨a, xs⟩ = .ok e') (hkind : e'.emptied = e.emptied)
    (hgains : Gains fs fs' ((fs.startOf a).along xs).location)
    (hfound : (fs'.discover ⟨a, xs⟩ recursive).result = .ok files) :
    (fs.discover ⟨a, xs⟩ recursive).result = .ok files := by
  obtain ⟨hq, r, hr, hentry⟩ := stat_eq_ok.mp hstat
  obtain ⟨-, r', hr', hentry'⟩ := stat_eq_ok.mp hstat'
  rw [h.resolveNames_eq] at hr
  rw [h'.resolveNames_eq] at hr'
  simp only [hstart] at hr'
  obtain rfl := along_of_pass hxs hr
  obtain rfl := along_of_pass hxs hr'
  rcases Entry.eq_or_files hkind with rfl | ⟨bytes, bytes', rfl, rfl⟩
  · cases e' with
    | folder =>
      rw [discover_of_folder hstat', discoverAs_eq_ok] at hfound
      rw [discover_of_folder hstat, discoverAs_eq_ok]
      exact ⟨realPath_of_startOf h h' hq hstart hfound.1,
        filesIn_of_gains h hw h' hw' hstart hr hr' hentry hentry' hgains hfound.2⟩
    | file bytes =>
      rw [discover_of_file hstat', discoverAs_eq_ok] at hfound
      rw [discover_of_file hstat, discoverAs_eq_ok]
      exact ⟨realPath_of_startOf h h' hq hstart hfound.1, hfound.2⟩
    | link target => exact absurd hentry (h.entryAt?_ne_link target)
    | device =>
      rw [discover_of_device hstat'] at hfound
      cases hfound
  · rw [discover_of_file hstat', discoverAs_eq_ok] at hfound
    rw [discover_of_file hstat, discoverAs_eq_ok]
    exact ⟨realPath_of_startOf h h' hq hstart hfound.1, hfound.2⟩

lemma filesIn_succ {levels : Nat} {folder : Path} (hlist : fs.list folder = .ok names) :
    fs.filesIn recursive (levels + 1) folder =
      fs.candidates (fs.filesIn recursive levels) recursive (names.map folder.child) := by
  rw [filesIn, hlist]

lemma candidates_of_file {descend : Path → Discovered} {qs : List Path} (hfile : fs.isFile q = .ok true)
    (hothers : (fs.candidates descend recursive qs).result = .ok files) :
    (fs.candidates descend recursive (q :: qs)).result = .ok (q :: files) := by
  rw [candidates, Discovered.andThen_eq_ok]
  exact ⟨[q], files, by rw [candidate, hfile], hothers, rfl⟩

lemma candidates_of_folder {descend : Path → Discovered} {qs found : List Path} (hstat : fs.stat q = .ok .folder)
    (hfound : (descend q).result = .ok found)
    (hothers : (fs.candidates descend true qs).result = .ok files) :
    (fs.candidates descend true (q :: qs)).result = .ok (found ++ files) := by
  rw [candidates, Discovered.andThen_eq_ok]
  refine ⟨found, files, ?_, hothers, rfl⟩
  simpa [candidate, isFile, isFolder, ask, hstat] using hfound

lemma candidates_of_files {descend : Path → Discovered} {qs : List Path}
    (hfiles : ∀ q ∈ qs, fs.isFile q = .ok true) : (fs.candidates descend recursive qs).result = .ok qs := by
  induction qs with
  | nil => rfl
  | cons q qs ih =>
    rw [List.forall_mem_cons] at hfiles
    exact candidates_of_file hfiles.1 (ih hfiles.2)

lemma LinkFree.list_of_names (h : fs.LinkFree) (loc : Location) (hq : admissible q = .ok ())
    (hpass : fs.pass (fs.startOf q.anchor) q.parts = .ok ⟨loc, 0⟩) (hfolder : fs.get? loc = some .folder)
    (hnames : fs.names loc = names) : fs.list q = .ok names :=
  h.list_eq_ok.mpr ⟨hq, ⟨loc, 0⟩, hpass, hfolder, hnames.symm⟩

/-- In a folder that holds nothing but files the search finds them all. -/
lemma LinkFree.discover_of_files (h : fs.LinkFree) (loc : Location) (names : List String)
    (hplace : admissible q = .ok () ∧ fs.isAdrift q = false ∧
      fs.pass (fs.startOf q.anchor) q.parts = .ok ⟨loc, 0⟩ ∧ fs.get? loc = some .folder)
    (hnames : fs.names loc = names)
    (hfiles : (∀ x ∈ names, fs.isFile (q.child x) = .ok true) ∧ names.map q.child = files) :
    (fs.discover q recursive).result = .ok files := by
  obtain ⟨hq, hadrift, hpass, hfolder⟩ := hplace
  rw [discover_of_folder (h.stat_of_pass hq hpass hfolder), discoverAs_eq_ok]
  refine ⟨(h.realPath (admissible_eq_ok.mp hq).1).2 hadrift, ?_⟩
  rw [show pathLimit = 4095 + 1 from rfl, filesIn_succ (h.list_of_names loc hq hpass hfolder hnames), ← hfiles.2]
  exact candidates_of_files (List.forall_mem_map.mpr hfiles.1)

lemma exists_isFile_of_candidates {descend : Path → Discovered} {qs : List Path}
    (hfound : (fs.candidates descend recursive qs).result = .ok files) (hq : q ∈ qs) : ∃ b, fs.isFile q = .ok b := by
  induction qs generalizing files with
  | nil => cases hq
  | cons r qs ih =>
    rw [candidates, Discovered.andThen_eq_ok] at hfound
    obtain ⟨first, others, hfirst, hothers, -⟩ := hfound
    rcases List.mem_cons.mp hq with rfl | hq
    · cases hfile : fs.isFile q with
      | error e =>
        rw [candidate, hfile] at hfirst
        cases hfirst
      | ok b => exact ⟨b, rfl⟩
    · exact ih hothers hq

/-- In a folder with an entry whose path is too long to be asked about the search fails. -/
lemma LinkFree.discover_of_refused (h : fs.LinkFree) (hw : fs.WellFormed) (loc : Location)
    (hplace : admissible q = .ok () ∧ fs.isAdrift q = false ∧
      fs.pass (fs.startOf q.anchor) q.parts = .ok ⟨loc, 0⟩ ∧ fs.get? loc = some .folder)
    (hx : (fs.get? (loc ++ [x])).isSome = true)
    (hlong : admissible (q.child x) = .error (.onPath .nameTooLong (q.child x))) :
    ∃ e, (fs.discover q recursive).result = .error e := by
  obtain ⟨hq, -, hpass, hfolder⟩ := hplace
  have hrefused : fs.isFile (q.child x) = .error (.onPath .nameTooLong (q.child x)) := by
    unfold isFile ask stat locate
    rw [hlong]
    rfl
  cases hfound : (fs.discover q recursive).result with
  | error e => exact ⟨e, rfl⟩
  | ok files =>
    rw [discover_of_folder (h.stat_of_pass hq hpass hfolder), discoverAs_eq_ok, show pathLimit = 4095 + 1 from rfl,
      filesIn_succ (h.list_of_names loc hq hpass hfolder rfl)] at hfound
    obtain ⟨b, hfile⟩ := exists_isFile_of_candidates hfound.2
      (List.mem_map_of_mem ((mem_names hw).mpr hx))
    rw [hrefused] at hfile
    cases hfile

/-- What stands at a location, apart from the contents of a file. -/
def outline (fs : FileSystem) (l : Location) : Option Entry := (fs.get? l).map Entry.emptied

/-- The location that a path leads to, if no link stands on the way. -/
def destination (fs : FileSystem) (q : Path) : Location := ((fs.startOf q.anchor).along q.parts).location

section Outline

variable (hsame : ∀ l, fs'.outline l = fs.outline l)
include hsame

lemma isSome_of_outline (l : Location) : (fs'.get? l).isSome = (fs.get? l).isSome := by
  have hl := congrArg Option.isSome (hsame l)
  rwa [outline, outline, Option.isSome_map, Option.isSome_map] at hl

lemma emptied_of_outline {l : Location} (he : fs.get? l = some e) :
    ∃ e', fs'.get? l = some e' ∧ e'.emptied = e.emptied := by
  have hl := hsame l
  rw [outline, outline, he, Option.map_some, Option.map_eq_some_iff] at hl
  exact hl

lemma gains_of_outline (loc : Location) : Gains fs fs' loc where
  keeps := fun l e _ he => emptied_of_outline hsame he
  folders := by
    intro l e' _ he'
    have hsome := isSome_of_outline hsame l
    rw [he', Option.isSome_some] at hsome
    exact Or.inl (Option.isSome_iff_exists.mp hsome.symm)

lemma folder_of_outline {l : Location} (hl : fs.get? l = some .folder) : fs'.get? l = some .folder := by
  obtain ⟨e', he', hkind⟩ := emptied_of_outline hsame hl
  rw [he', Entry.emptied_eq_folder.mp hkind]

lemma step_of_outline {r : Place} (hstep : fs.step p x = .ok r) : fs'.step p x = .ok r := by
  unfold step at hstep ⊢
  by_cases hdots : (x = "" || x = "." || x = "..") = true
  · rw [if_pos hdots] at hstep ⊢
    have hfolder : fs.entryAt? p = some .folder := by
      split at hstep
      · next hentry => exact hentry
      · cases hstep
      · cases hstep
    have hfolder' : fs'.entryAt? p = some .folder := by
      unfold entryAt? at hfolder ⊢
      split_ifs at hfolder ⊢
      · exact folder_of_outline hsame hfolder
      · rfl
    rw [hfolder] at hstep
    rw [hfolder']
    exact hstep
  · rw [if_neg hdots] at hstep ⊢
    split at hstep
    · cases hstep
    · cases hstep
    · next e hin =>
      obtain ⟨hlost, hfolder, hsize, hsome⟩ := entryIn_eq_ok.mp hin
      have hsome' := isSome_of_outline hsame (p.location ++ [x])
      rw [← hsome] at hsome'
      obtain ⟨e', he'⟩ := Option.isSome_iff_exists.mp hsome'
      have hin' : fs'.entryIn p x = .ok (some e') :=
        entryIn_eq_ok.mpr ⟨hlost, folder_of_outline hsame hfolder, hsize, he'.symm⟩
      rw [hin']
      exact hstep

/-- Going along names does not depend on what is in a file. -/
lemma pass_of_outline {r : Place} (hpass : fs.pass p xs = .ok r) : fs'.pass p xs = .ok r := by
  induction xs generalizing p with
  | nil => exact hpass
  | cons x xs ih =>
    rw [pass_cons] at hpass ⊢
    cases hstep : fs.step p x with
    | error fault =>
      rw [hstep] at hpass
      cases hpass
    | ok next =>
      rw [hstep] at hpass
      rw [step_of_outline hsame hstep]
      exact ih hpass

lemma stat_of_outline (h : fs.LinkFree) (h' : fs'.LinkFree)
    (hstart : fs'.startOf q.anchor = fs.startOf q.anchor) (hstat : fs.stat q = .ok e) :
    ∃ e', fs'.stat q = .ok e' ∧ e'.emptied = e.emptied := by
  obtain ⟨hq, r, hr, hentry⟩ := stat_eq_ok.mp hstat
  rw [h.resolveNames_eq] at hr
  have hr' : fs'.resolveNames linkLimit (fs'.startOf q.anchor) q.parts = .ok r := by
    rw [h'.resolveNames_eq, hstart]
    exact pass_of_outline hsame hr
  unfold entryAt? at hentry
  split_ifs at hentry with hlost
  · obtain ⟨e', he', hkind⟩ := emptied_of_outline hsame hentry
    exact ⟨e', stat_eq_ok.mpr ⟨hq, r, hr', by simpa [entryAt?, hlost] using he'⟩, hkind⟩
  · cases hentry
    exact ⟨.folder, stat_eq_ok.mpr ⟨hq, r, hr', by simp [entryAt?, hlost]⟩, rfl⟩

/-- A search does not depend on what is in a file. -/
theorem discover_of_outline (h : fs.LinkFree) (hw : fs.WellFormed) (h' : fs'.LinkFree) (hw' : fs'.WellFormed)
    (hstart : fs'.startOf q.anchor = fs.startOf q.anchor) (hq : q.Proper)
    (hfound : (fs.discover q recursive).result = .ok files) :
    (fs'.discover q recursive).result = .ok files := by
  obtain ⟨e, hstat⟩ := stat_of_discover hfound
  obtain ⟨e', hstat', hkind⟩ := stat_of_outline hsame h h' hstart hstat
  exact discover_of_gains h' hw' h hw hstart.symm hq hstat' hstat hkind.symm
    (gains_of_outline (fun l => (hsame l).symm) _) hfound

end Outline

end FileSystem

end Stubsmith.Files
