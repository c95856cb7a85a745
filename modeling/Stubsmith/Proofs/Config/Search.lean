import Mathlib.Data.List.Infix
import Stubsmith.Config.Load
import Stubsmith.Proofs.Data.Result
import Stubsmith.Proofs.Files.Inventory
import Stubsmith.Proofs.Files.RealFolders
import Stubsmith.Proofs.Text.Joining

/-!
# The nearest configuration

The search for the configuration file goes up from the real path of a folder and stops at the first folder, of at most
twenty, that holds a regular file of the right name, links followed. It has no answer only if that folder has no real
path or if a lookup on the way fails because a name is too long. A file that is found from two working folders gives
the same settings in both: its relative paths start at its own folder.
-/
namespace Stubsmith.Files

/-- The path and the paths above it, nearest first. -/
def Path.lineage (p : Path) : List Path := p.parts.inits.reverse.map fun names => ⟨p.anchor, names⟩

lemma Path.lineage_nil (a : Anchor) : Path.lineage ⟨a, []⟩ = [⟨a, []⟩] := rfl

lemma Path.lineage_concat (a : Anchor) (names : List String) (name : String) :
    Path.lineage ⟨a, names ++ [name]⟩ = ⟨a, names ++ [name]⟩ :: Path.lineage ⟨a, names⟩ := by
  simp [lineage, List.inits_append]

lemma Path.mem_lineage {p d : Path} : d ∈ p.lineage ↔ d.anchor = p.anchor ∧ d.parts <+: p.parts := by
  constructor
  · intro h
    obtain ⟨names, hnames, rfl⟩ := List.mem_map.mp h
    exact ⟨rfl, (List.mem_inits _ _).mp (List.mem_reverse.mp hnames)⟩
  · rintro ⟨hanchor, hparts⟩
    refine List.mem_map.mpr ⟨d.parts, List.mem_reverse.mpr ((List.mem_inits _ _).mpr hparts), ?_⟩
    rw [← hanchor]

end Stubsmith.Files

namespace Stubsmith.Config

open Files (Path FileSystem FileError Route)
open Files.FileSystem (pathOf)

variable {fs fs' : FileSystem} {start folder d p : Path} {folders : List Path} {limit : Nat}

/-- A regular file with the name of a configuration file stands in the folder, links followed. -/
def Holds (fs : FileSystem) (d : Path) : Prop := ∃ bytes, fs.stat (d.child fileName) = .ok (.file bytes)

/-- Whether there is such a file cannot be told, since a name is too long to be looked up. -/
def Obscure (fs : FileSystem) (d : Path) : Prop := fs.Overlong (d.child fileName)

/-- The folder is one of the list, and those before it were looked at in vain. -/
def Reached (fs : FileSystem) (folders : List Path) (d : Path) : Prop :=
  ∃ before after, folders = before ++ d :: after ∧ ∀ b ∈ before, ¬ Holds fs b ∧ ¬ Obscure fs b

lemma isFile_eq_false : fs.isFile (d.child fileName) = .ok false ↔ ¬ Holds fs d ∧ ¬ Obscure fs d := by
  unfold Holds Obscure
  rw [← FileSystem.isFile_eq_true]
  cases hfile : fs.isFile (d.child fileName) with
  | error e =>
    have hlong := (FileSystem.isFile_eq_error.mp hfile).2
    simp [hlong]
  | ok answer =>
    have htold := FileSystem.not_overlong hfile
    simp [htold]

lemma reached_cons {c : Path} : Reached fs (c :: folders) d ↔
    d = c ∨ (¬ Holds fs c ∧ ¬ Obscure fs c) ∧ Reached fs folders d := by
  constructor
  · rintro ⟨before, after, hsplit, hbefore⟩
    cases before with
    | nil => exact Or.inl (List.cons.inj hsplit).1.symm
    | cons b before =>
      obtain ⟨rfl, hrest⟩ := List.cons.inj hsplit
      rw [List.forall_mem_cons] at hbefore
      exact Or.inr ⟨hbefore.1, before, after, hrest, hbefore.2⟩
  · rintro (rfl | ⟨hc, before, after, rfl, hbefore⟩)
    · exact ⟨[], folders, rfl, by simp⟩
    · exact ⟨c :: before, after, rfl, List.forall_mem_cons.mpr ⟨hc, hbefore⟩⟩

/-- The search in one folder after another. -/
def firstIn (fs : FileSystem) : List Path → Except FileError (Option Path)
  | [] => .ok none
  | d :: rest => do
    if ← fs.isFile (d.child fileName) then return some (d.child fileName) else firstIn fs rest

/-- The folders that are looked at are the first of those on the way up to the root. -/
lemma findAbove_eq_firstIn : findAbove fs limit folder = firstIn fs (folder.lineage.take limit) := by
  obtain ⟨a, names⟩ := folder
  induction limit generalizing names with
  | zero => rfl
  | succ limit ih =>
    unfold findAbove
    rcases List.eq_nil_or_concat names with rfl | ⟨names, name, rfl⟩
    · have hparent : Path.parent ⟨a, []⟩ = ⟨a, []⟩ := rfl
      rw [Path.lineage_nil, List.take_succ_cons, List.take_nil, firstIn, firstIn, if_pos hparent]
      rfl
    · have hparent : Path.parent ⟨a, names.concat name⟩ = ⟨a, names⟩ := by simp [Path.parent]
      have hup : (⟨a, names⟩ : Path) ≠ ⟨a, names.concat name⟩ := by simp
      rw [hparent, if_neg hup, ih, List.concat_eq_append, Path.lineage_concat, List.take_succ_cons, firstIn]

/-- The first folder holds the file, or it cannot be told whether it does, or the search goes on. -/
lemma firstIn_cons (fs : FileSystem) (c : Path) (folders : List Path) :
    Holds fs c ∧ ¬ Obscure fs c ∧ firstIn fs (c :: folders) = .ok (some (c.child fileName)) ∨
    ¬ Holds fs c ∧ Obscure fs c ∧ firstIn fs (c :: folders) = .error (.onPath .nameTooLong (c.child fileName)) ∨
    ¬ Holds fs c ∧ ¬ Obscure fs c ∧ firstIn fs (c :: folders) = firstIn fs folders := by
  rw [firstIn]
  cases hfile : fs.isFile (c.child fileName) with
  | error e =>
    obtain ⟨rfl, hlong⟩ := FileSystem.isFile_eq_error.mp hfile
    refine Or.inr (Or.inl ⟨?_, hlong, rfl⟩)
    rintro ⟨bytes, hbytes⟩
    cases hlong.symm.trans hbytes
  | ok answer =>
    cases answer with
    | false =>
      obtain ⟨hno, htold⟩ := isFile_eq_false.mp hfile
      exact Or.inr (Or.inr ⟨hno, htold, rfl⟩)
    | true => exact Or.inl ⟨FileSystem.isFile_eq_true.mp hfile, FileSystem.not_overlong hfile, rfl⟩

lemma firstIn_eq_some : firstIn fs folders = .ok (some p) ↔
    ∃ d, Reached fs folders d ∧ Holds fs d ∧ p = d.child fileName := by
  induction folders with
  | nil => simp [firstIn, Reached]
  | cons c rest ih =>
    rcases firstIn_cons fs c rest with ⟨hheld, htold, hfirst⟩ | ⟨hno, hlong, hfirst⟩ | ⟨hno, htold, hfirst⟩
    · simp [hfirst, reached_cons, hheld, eq_comm]
    · simp [hfirst, reached_cons, hno, hlong]
    · simp [hfirst, reached_cons, hno, htold, ih]

lemma firstIn_eq_none : firstIn fs folders = .ok none ↔ ∀ d ∈ folders, ¬ Holds fs d ∧ ¬ Obscure fs d := by
  induction folders with
  | nil => simp [firstIn]
  | cons c rest ih =>
    rcases firstIn_cons fs c rest with ⟨hheld, htold, hfirst⟩ | ⟨hno, hlong, hfirst⟩ | ⟨hno, htold, hfirst⟩
    · simp [hfirst, hheld]
    · simp [hfirst, hlong]
    · simp [hfirst, hno, htold, ih]

lemma firstIn_eq_error {e : FileError} : firstIn fs folders = .error e ↔
    ∃ d, Reached fs folders d ∧ Obscure fs d ∧ e = .onPath .nameTooLong (d.child fileName) := by
  induction folders with
  | nil => simp [firstIn, Reached]
  | cons c rest ih =>
    rcases firstIn_cons fs c rest with ⟨hheld, htold, hfirst⟩ | ⟨hno, hlong, hfirst⟩ | ⟨hno, htold, hfirst⟩
    · simp [hfirst, reached_cons, hheld, htold]
    · simp [hfirst, reached_cons, hlong, eq_comm]
    · simp [hfirst, reached_cons, hno, htold, ih]

lemma find_eq_some : find fs start = .ok (some p) ↔ ∃ folder d, fs.realPath start = .ok folder ∧
    Reached fs (folder.lineage.take searchLimit) d ∧ Holds fs d ∧ p = d.child fileName := by
  unfold find
  cases hreal : fs.realPath start with
  | error e => simp
  | ok folder => simp [findAbove_eq_firstIn, mapError_eq_ok, firstIn_eq_some]

lemma find_eq_none : find fs start = .ok none ↔ ∃ folder, fs.realPath start = .ok folder ∧
    ∀ d ∈ folder.lineage.take searchLimit, ¬ Holds fs d ∧ ¬ Obscure fs d := by
  unfold find
  cases hreal : fs.realPath start with
  | error e => simp
  | ok folder => simp [findAbove_eq_firstIn, mapError_eq_ok, firstIn_eq_none]

lemma find_eq_error : (∃ e, find fs start = .error e) ↔ (∃ e, fs.realPath start = .error e) ∨
    ∃ folder d, fs.realPath start = .ok folder ∧ Reached fs (folder.lineage.take searchLimit) d ∧ Obscure fs d := by
  unfold find
  cases hreal : fs.realPath start with
  | error e => simp
  | ok folder => simp [findAbove_eq_firstIn, mapError_eq_error, firstIn_eq_error]

lemma mem_of_reached (h : Reached fs folders d) : d ∈ folders := by
  obtain ⟨before, after, rfl, -⟩ := h
  simp

lemma stat_of_find (h : find fs start = .ok (some p)) : ∃ bytes, fs.stat p = .ok (.file bytes) := by
  obtain ⟨folder, d, hreal, hreached, hholds, rfl⟩ := find_eq_some.mp h
  exact hholds

/-- What is found from the working folder stands in it or in a folder above it. -/
lemma found_here (hw : fs.WellFormed) (h : find fs ⟨.here, []⟩ = .ok (some p)) :
    ∃ loc, fs.get? loc = some .folder ∧ Holds fs (pathOf loc) ∧
      p = (pathOf loc).child fileName := by
  obtain ⟨folder, d, hreal, hreached, hholds, rfl⟩ := find_eq_some.mp h
  have hlost : fs.lost = 0 := by
    by_contra hlost
    cases (FileSystem.realPath_here_lost hlost).symm.trans hreal
  obtain rfl : pathOf fs.here = folder := Except.ok.inj ((hw.realPath_here hlost).symm.trans hreal)
  obtain ⟨hanchor, names, hnames⟩ := Path.mem_lineage.mp (List.mem_of_mem_take (mem_of_reached hreached))
  have hhere : fs.get? (d.parts ++ names) = some .folder := by
    rw [hnames]
    simpa [hlost, pathOf] using hw.standing.2
  have hd : d = pathOf d.parts := by
    rw [pathOf, ← show d.anchor = .root from hanchor]
  rw [hd] at hholds ⊢
  exact ⟨d.parts, hw.folder_of_append hhere, hholds, rfl⟩

/-- The folder of a file that was found from the working folder is its own real path. -/
lemma realPath_parent (hw : fs.WellFormed) (h : find fs ⟨.here, []⟩ = .ok (some p)) :
    fs.realPath p.parent = .ok p.parent ∧ p.anchor = .root := by
  obtain ⟨loc, hfolder, ⟨bytes, hbytes⟩, rfl⟩ := found_here hw h
  have hparent : ((pathOf loc).child fileName).parent = pathOf loc := by
    simp [Path.parent, Path.child, pathOf]
  have hadmissible : FileSystem.admissible (pathOf loc) = .ok () :=
    FileSystem.admissible_of_append (FileSystem.stat_eq_ok.mp hbytes).1
  rw [hparent]
  exact ⟨hw.realPath_folder hfolder (FileSystem.admissible_eq_ok.mp hadmissible).1, rfl⟩

/-- How a path that is written in a configuration stands in the settings: a relative one is joined to the folder of
the file. -/
inductive Placed (base : Path) : Option Route → Option Route → Prop
  | absent : Placed base none none
  | absolute {r : Route} (h : r.isAbsolute = true) : Placed base (some r) (some r)
  | joined {r : Route} (h : r.isAbsolute = false) :
      Placed base (some r) (some ⟨base.anchor, (Route.ofPath base).parts ++ r.parts⟩)

/-- The settings are those that stand in the bytes of the file, with the paths in their places. -/
structure ReadFrom (p : Path) (bytes : Text.Bytes) (settings : Settings) : Prop where
  written : ∃ plain, settingsOf p bytes = .ok plain ∧ Placed p.parent plain.input settings.input ∧
    Placed p.parent plain.out settings.out ∧ settings.writer = plain.writer ∧ settings.recursive = plain.recursive
  absolute : ∀ r, settings.input = some r ∨ settings.out = some r → r.isAbsolute = true

lemma placed_anchor (base : Path) (r : Option Route) : Placed base r (r.map (anchor base)) := by
  cases r with
  | none => exact .absent
  | some r =>
    cases habsolute : r.isAbsolute with
    | true =>
      rw [Option.map_some, anchor, if_pos habsolute]
      exact .absolute habsolute
    | false =>
      rw [Option.map_some, anchor, if_neg (by simp [habsolute]), Route.join, if_neg (by simp [habsolute])]
      exact .joined habsolute

lemma Placed.isAbsolute {base : Path} {r r' : Option Route} {s : Route} (h : Placed base r r')
    (hbase : base.anchor = .root) (hs : r' = some s) : s.isAbsolute = true := by
  cases h with
  | absent => cases hs
  | absolute habsolute =>
    cases hs
    exact habsolute
  | joined habsolute =>
    cases hs
    simp [Route.isAbsolute, hbase]

lemma readFrom_anchored {bytes : Text.Bytes} {plain : Settings} (hanchor : p.anchor = .root)
    (h : settingsOf p bytes = .ok plain) : ReadFrom p bytes (plain.anchored p.parent) := by
  have hinput : Placed p.parent plain.input (plain.anchored p.parent).input := placed_anchor _ _
  have hout : Placed p.parent plain.out (plain.anchored p.parent).out := placed_anchor _ _
  refine ⟨⟨plain, h, hinput, hout, rfl, rfl⟩, ?_⟩
  rintro r (hr | hr)
  · exact hinput.isAbsolute hanchor hr
  · exact hout.isAbsolute hanchor hr

/-- A file that is there is read, and its paths start at the real path of its folder. -/
lemma loadFile_eq {bytes : Text.Bytes} {base : Path} (hbytes : fs.stat p = .ok (.file bytes))
    (hbase : fs.realPath p.parent = .ok base) :
    loadFile fs p = (settingsOf p bytes).map (·.anchored base) := by
  unfold loadFile
  cases hsettings : settingsOf p bytes <;>
    simp [FileSystem.readFile_of_file hbytes, hbase, hsettings, bind, Except.bind, pure, Except.pure, Except.mapError,
      Except.map]

lemma load_found (h : find fs ⟨.here, []⟩ = .ok (some p)) :
    load fs none true = ((loadChosen fs (some p)).1, begun (some p) ++ (loadChosen fs (some p)).2) := by
  have hchoose : choose fs none true = .ok (some p) := mapError_eq_ok.mpr h
  rw [load, hchoose]

lemma loadChosen_fst : (loadChosen fs (some p)).1 = loadFile fs p := by
  unfold loadChosen
  dsimp only
  split
  · next hload => exact hload.symm
  · next hload => exact hload.symm

/-- Beside the path, what is loaded is all that loading leaves a trace of. -/
lemma loadChosen_congr (h : loadFile fs' p = loadFile fs p) : loadChosen fs' (some p) = loadChosen fs (some p) := by
  unfold loadChosen
  dsimp only
  rw [h]

/-- A file that is found from two working folders is loaded alike from both. -/
lemma load_elsewhere (hw : fs.WellFormed) (hw' : fs'.WellFormed) (hentries : fs'.entries = fs.entries)
    (h : find fs ⟨.here, []⟩ = .ok (some p)) (h' : find fs' ⟨.here, []⟩ = .ok (some p)) :
    load fs' none true = load fs none true := by
  obtain ⟨hreal, hanchor⟩ := realPath_parent hw h
  obtain ⟨hreal', -⟩ := realPath_parent hw' h'
  obtain ⟨bytes, hbytes⟩ := stat_of_find h
  have hbytes' : fs'.stat p = .ok (.file bytes) :=
    (FileSystem.stat_elsewhere hentries (by simp [hanchor])).trans hbytes
  have hload : loadFile fs' p = loadFile fs p := by
    rw [loadFile_eq hbytes hreal, loadFile_eq hbytes' hreal']
  rw [load_found h, load_found h', loadChosen_congr hload]

/-- The search from a path has as its result the file in the first folder that holds one, among the real path and the
nineteen folders above it, or nothing if none of them does. It fails only if the path has no real path or if a folder
that cannot be looked into comes before. What is found from two working folders gives the same settings, with paths
that are absent, or absolute as written, or joined to the real path of the folder of the file. -/
theorem find_nearest (fs : FileSystem) (start : Path) :
    (∀ p, find fs start = .ok (some p) ↔ ∃ folder d, fs.realPath start = .ok folder ∧
      Reached fs (folder.lineage.take 20) d ∧ Holds fs d ∧ p = d.child "protostub.yml") ∧
    (find fs start = .ok none ↔ ∃ folder, fs.realPath start = .ok folder ∧
      ∀ d ∈ folder.lineage.take 20, ¬ Holds fs d ∧ ¬ Obscure fs d) ∧
    ((∃ e, find fs start = .error e) ↔ (∃ e, fs.realPath start = .error e) ∨
      ∃ folder d, fs.realPath start = .ok folder ∧ Reached fs (folder.lineage.take 20) d ∧ Obscure fs d) ∧
    ∀ fs' p, fs.WellFormed → fs'.WellFormed → fs'.entries = fs.entries →
      find fs ⟨.here, []⟩ = .ok (some p) → find fs' ⟨.here, []⟩ = .ok (some p) →
      load fs' none true = load fs none true ∧ fs.realPath p.parent = .ok p.parent ∧
      ∃ bytes, fs.stat p = .ok (.file bytes) ∧
        ∀ settings, (load fs none true).1 = .ok settings → ReadFrom p bytes settings := by
  refine ⟨fun p => find_eq_some, find_eq_none, find_eq_error, ?_⟩
  intro fs' p hw hw' hentries h h'
  obtain ⟨hreal, hanchor⟩ := realPath_parent hw h
  obtain ⟨bytes, hbytes⟩ := stat_of_find h
  refine ⟨load_elsewhere hw hw' hentries h h', hreal, bytes, hbytes, fun settings hload => ?_⟩
  rw [load_found h, loadChosen_fst, loadFile_eq hbytes hreal] at hload
  cases hplain : settingsOf p bytes with
  | error e =>
    rw [hplain] at hload
    cases hload
  | ok plain =>
    rw [hplain] at hload
    cases hload
    exact readFrom_anchored hanchor hplain

/-- A project with a configuration in a folder above two others, in one of which a folder has its name. -/
def project (here : Files.Location) : FileSystem :=
  { entries := [(["a"], .folder), (["a", "protostub.yml"], .file (Text.encode "proto: p\nout: /o\n".toList)),
      (["a", "b"], .folder), (["a", "b", "protostub.yml"], .folder), (["a", "d"], .folder), (["a", "d", "e"], .folder)]
    here }

theorem project_nearest :
    (project ["a", "b"]).WellFormed ∧ (project ["a", "d", "e"]).WellFormed ∧
    find (project ["a", "b"]) ⟨.here, []⟩ = .ok (some ⟨.root, ["a", "protostub.yml"]⟩) ∧
    find (project ["a", "d", "e"]) ⟨.here, []⟩ = .ok (some ⟨.root, ["a", "protostub.yml"]⟩) ∧
    load (project ["a", "d", "e"]) none true = load (project ["a", "b"]) none true ∧
    ∃ bytes, ReadFrom ⟨.root, ["a", "protostub.yml"]⟩ bytes
      { input := some ⟨.root, [[.char 'a'], [.char 'p']]⟩, out := some ⟨.root, [[.char 'o']]⟩ } := by
  have hw : (project ["a", "b"]).WellFormed := by decide +kernel
  have hw' : (project ["a", "d", "e"]).WellFormed := by decide +kernel
  have h : find (project ["a", "b"]) ⟨.here, []⟩ = .ok (some ⟨.root, ["a", "protostub.yml"]⟩) := by decide +kernel
  have h' : find (project ["a", "d", "e"]) ⟨.here, []⟩ = .ok (some ⟨.root, ["a", "protostub.yml"]⟩) := by
    decide +kernel
  have hload : (load (project ["a", "b"]) none true).1 =
      .ok { input := some ⟨.root, [[.char 'a'], [.char 'p']]⟩, out := some ⟨.root, [[.char 'o']]⟩ } := by
    decide +kernel
  obtain ⟨hsame, -, bytes, -, hread⟩ := (find_nearest (project ["a", "b"]) ⟨.here, []⟩).2.2.2 _ _ hw hw' rfl h h'
  exact ⟨hw, hw', h, h', hsame, bytes, hread _ hload⟩

/-- A project with a configuration above a folder in which a link has its name. -/
def linkedProject (target : String) : FileSystem :=
  { entries := [(["protostub.yml"], .file []), (["a"], .folder), (["a", "protostub.yml"], .link target)]
    here := [] }

/-- A link to a name that is too long cannot be looked up. -/
lemma obscure_linkedProject {x : String} (hx : Files.IsPlain x) (hslash : '/' ∉ x.toList)
    (hlong : FileSystem.nameLimit < x.utf8ByteSize) : Obscure (linkedProject x) (pathOf ["a"]) := by
  have hnames : FileSystem.targetNames x = [x] := by
    rw [FileSystem.targetNames, Text.fields_of_not_mem hslash, List.map_singleton, String.ofList_toList]
  have hrelative : x.toList.head? ≠ some '/' := fun h => hslash (List.mem_of_head? h)
  have hfollow : (linkedProject x).resolveNames 39 ⟨["a"], 0⟩ [x] = .error .nameTooLong := by
    have hin : (linkedProject x).entryIn ⟨["a"], 0⟩ x = .error .nameTooLong := by
      simp [FileSystem.entryIn, FileSystem.get?, linkedProject, hlong]
    rw [FileSystem.resolveNames, FileSystem.walk_cons, if_neg (by simp [hx.1, hx.2.1, hx.2.2]), hin]
  have hfolder : (linkedProject x).entryIn ⟨[], 0⟩ "a" = .ok (some .folder) := rfl
  have hlink : (linkedProject x).entryIn ⟨["a"], 0⟩ fileName = .ok (some (.link x)) := rfl
  have hresolve : (linkedProject x).resolveNames FileSystem.linkLimit
      ((linkedProject x).startOf ((pathOf ["a"]).child fileName).anchor) ((pathOf ["a"]).child fileName).parts =
      .error .nameTooLong := by
    change (linkedProject x).walk ((linkedProject x).resolveNames 39) ⟨[], 0⟩ ["a", fileName] = _
    rw [FileSystem.walk_cons, if_neg (by decide), hfolder]
    dsimp only [List.nil_append]
    rw [FileSystem.walk_cons, if_neg (by decide), hlink]
    dsimp only
    rw [if_neg hrelative, hnames]
    exact hfollow
  have hadmissible : FileSystem.admissible ((pathOf ["a"]).child fileName) = .ok () := by decide +kernel
  unfold Obscure FileSystem.Overlong FileSystem.stat FileSystem.locate
  rw [hadmissible, hresolve]
  rfl

/-- A link to a name that is too long is no file, and yet it keeps the file above it from being found. -/
theorem linkedProject_not_found : ∃ target, (linkedProject target).WellFormed ∧
    (linkedProject target).realPath ⟨.here, ["a"]⟩ = .ok (pathOf ["a"]) ∧
    (pathOf ["a"]).lineage.take 20 = [pathOf ["a"], pathOf []] ∧
    ¬ Holds (linkedProject target) (pathOf ["a"]) ∧ Holds (linkedProject target) (pathOf []) ∧
    ∀ p, find (linkedProject target) ⟨.here, ["a"]⟩ ≠ .ok (some p) := by
  have hslash : '/' ∉ (String.ofList (List.replicate 256 'n')).toList := by
    rw [String.toList_ofList]
    exact fun hmem => absurd (List.eq_of_mem_replicate hmem) (by decide)
  refine ⟨String.ofList (List.replicate 256 'n'), ?_⟩
  generalize htarget : String.ofList (List.replicate 256 'n') = target at hslash
  have hlong : Obscure (linkedProject target) (pathOf ["a"]) :=
    obscure_linkedProject (by subst htarget; decide +kernel) hslash (by subst htarget; decide +kernel)
  have hno : ¬ Holds (linkedProject target) (pathOf ["a"]) := by
    rintro ⟨bytes, hbytes⟩
    cases hlong.symm.trans hbytes
  have hreal : (linkedProject target).realPath ⟨.here, ["a"]⟩ = .ok (pathOf ["a"]) := by
    subst htarget
    decide +kernel
  refine ⟨by subst htarget; decide +kernel, hreal, rfl, hno, ⟨[], by subst htarget; decide +kernel⟩, fun p hp => ?_⟩
  obtain ⟨folder, d, hfolder, hreached, hholds, -⟩ := find_eq_some.mp hp
  cases hreal.symm.trans hfolder
  rcases reached_cons.mp hreached with rfl | ⟨⟨-, htold⟩, -⟩
  · exact hno hholds
  · exact htold hlong

end Stubsmith.Config
