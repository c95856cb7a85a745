import Mathlib.Tactic.Common
import Stubsmith.Files.FileSystem

/-!
# File systems that extend others

A file system extends another if every entry of the other stands in it unchanged. What a path leads to
in the smaller one it leads to in the larger one, since resolution never goes through a place where
nothing stands. New folders and new files are made in vacant places only, so making them extends the
file system.
-/
namespace Stubsmith.Files

open Text (Bytes)

namespace FileSystem

variable {fs fs' fs'' : FileSystem} {loc : Location} {p : Place} {q : Path} {name : String}

lemma get?_set (hloc : loc ≠ []) (e : Entry) (l : Location) :
    (fs.set loc e).get? l = if l = loc then some e else fs.get? l := by
  unfold get? set
  by_cases hl : l = loc
  · simp [hl, hloc]
  · have hfind : ((loc, e) :: fs.entries.filter (·.1 ≠ loc)).find? (·.1 = l) =
        fs.entries.find? (·.1 = l) := by
      rw [List.find?_cons_of_neg (by simpa using Ne.symm hl), List.find?_filter]
      congr 1
      funext a
      by_cases ha : a.1 = l
      · simp [ha, hl]
      · simp [ha]
    rw [hfind, if_neg hl]

lemma set_set (loc : Location) (e e' : Entry) : (fs.set loc e).set loc e' = fs.set loc e' := by
  simp [set, List.filter_filter]

/-- Removing what was put into a vacant place leaves the file system as it was. -/
lemma erase_set (h : fs.get? loc = none) (e : Entry) : (fs.set loc e).erase loc = fs := by
  have hnone : ∀ a ∈ fs.entries, a.1 ≠ loc := by
    unfold get? at h
    split_ifs at h
    simpa using h
  have hfilter : fs.entries.filter (fun a => !decide (a.1 = loc)) = fs.entries := by
    rw [List.filter_eq_self]
    simpa using hnone
  simp [set, erase, hfilter]

lemma append_set (hloc : loc ≠ []) (held bytes : Bytes) :
    (fs.set loc (.file held)).append loc bytes = fs.set loc (.file (held ++ bytes)) := by
  unfold append
  rw [get?_set hloc, if_pos rfl]
  exact set_set loc _ _

/-- Every entry stands in the second file system as it stands in the first, and the working folder is
the same. -/
structure Extends (fs fs' : FileSystem) : Prop where
  keeps : ∀ loc e, fs.get? loc = some e → fs'.get? loc = some e
  here : fs'.here = fs.here
  lost : fs'.lost = fs.lost

@[refl] lemma Extends.refl (fs : FileSystem) : fs.Extends fs := ⟨fun _ _ h => h, rfl, rfl⟩

lemma Extends.trans (h : fs.Extends fs') (h' : fs'.Extends fs'') : fs.Extends fs'' where
  keeps := fun loc e he => h'.keeps loc e (h.keeps loc e he)
  here := h'.here.trans h.here
  lost := h'.lost.trans h.lost

lemma ne_root_of_vacant (h : fs.get? loc = none) : loc ≠ [] := by
  rintro rfl
  cases h

lemma extends_set (h : fs.get? loc = none) (e : Entry) : fs.Extends (fs.set loc e) where
  keeps := by
    intro l f hf
    rw [get?_set (ne_root_of_vacant h), if_neg]
    · exact hf
    · rintro rfl
      rw [h] at hf
      cases hf
  here := rfl
  lost := rfl

/-- The second file system has nothing that the first has not, new folders apart. -/
structure AddsFolders (fs fs' : FileSystem) : Prop extends Extends fs fs' where
  folders : ∀ loc e, fs'.get? loc = some e → fs.get? loc = some e ∨ e = .folder

@[refl] lemma AddsFolders.refl (fs : FileSystem) : fs.AddsFolders fs :=
  ⟨.refl fs, fun _ _ h => Or.inl h⟩

lemma AddsFolders.trans (h : fs.AddsFolders fs') (h' : fs'.AddsFolders fs'') : fs.AddsFolders fs'' where
  toExtends := h.toExtends.trans h'.toExtends
  folders := by
    intro loc e he
    rcases h'.folders loc e he with he | he
    · exact h.folders loc e he
    · exact Or.inr he

lemma addsFolders_set (h : fs.get? loc = none) : fs.AddsFolders (fs.set loc .folder) where
  toExtends := extends_set h .folder
  folders := by
    intro l e he
    rw [get?_set (ne_root_of_vacant h)] at he
    split_ifs at he with hl
    · cases he
      exact Or.inr rfl
    · exact Or.inl he

lemma entryIn_eq_ok {x : Option Entry} : fs.entryIn p name = .ok x ↔
    p.lost = 0 ∧ fs.get? p.location = some .folder ∧ name.utf8ByteSize ≤ nameLimit ∧
      x = fs.get? (p.location ++ [name]) := by
  unfold entryIn
  by_cases hl : p.lost = 0
  · rw [if_neg (not_not.mpr hl)]
    cases he : fs.get? p.location with
    | none => simp
    | some e =>
      cases e with
      | folder =>
        by_cases hn : name.utf8ByteSize > nameLimit
        · simp [hl, hn, Nat.not_le.mpr hn]
        · simp [hl, hn, eq_comm, Nat.le_of_not_gt hn]
      | file bytes => simp
      | link target => simp
      | device => simp
  · simp [hl]

lemma walk_cons (follow : Place → List String → Except Fault Place) (p : Place) (name : String)
    (rest : List String) : fs.walk follow p (name :: rest) =
    if name = "" || name = "." || name = ".." then
      match fs.entryAt? p with
      | some .folder => fs.walk follow (if name = ".." then p.up else p) rest
      | some _ => .error .notFolder
      | none => .error .missing
    else
      match fs.entryIn p name with
      | .error e => .error e
      | .ok none => .error .missing
      | .ok (some (.link target)) =>
        follow (if target.toList.head? = some '/' then ⟨[], 0⟩ else p) (targetNames target ++ rest)
      | .ok (some _) => fs.walk follow ⟨p.location ++ [name], 0⟩ rest := by rfl

namespace Extends

lemma entryAt? {e : Entry} (h : fs.Extends fs') (he : fs.entryAt? p = some e) :
    fs'.entryAt? p = some e := by
  unfold FileSystem.entryAt? at he ⊢
  split_ifs at he ⊢
  · exact h.keeps _ _ he
  · exact he

lemma entryIn {e : Entry} (h : fs.Extends fs') (he : fs.entryIn p name = .ok (some e)) :
    fs'.entryIn p name = .ok (some e) := by
  obtain ⟨hl, hf, hn, hx⟩ := entryIn_eq_ok.mp he
  exact entryIn_eq_ok.mpr ⟨hl, h.keeps _ _ hf, hn, (h.keeps _ _ hx.symm).symm⟩

lemma walk (h : fs.Extends fs') {follow follow' : Place → List String → Except Fault Place}
    (hfollow : ∀ p names r, follow p names = .ok r → follow' p names = .ok r) {names : List String}
    {r : Place} (hw : fs.walk follow p names = .ok r) : fs'.walk follow' p names = .ok r := by
  induction names generalizing p with
  | nil => exact hw
  | cons name rest ih =>
    rw [walk_cons] at hw ⊢
    by_cases hdots : (name = "" || name = "." || name = "..") = true
    · rw [if_pos hdots] at hw ⊢
      cases he : fs.entryAt? p with
      | none => simp [he] at hw
      | some e =>
        rw [h.entryAt? he]
        cases e with
        | folder =>
          simp only [he] at hw
          exact ih hw
        | file bytes => simp [he] at hw
        | link target => simp [he] at hw
        | device => simp [he] at hw
    · rw [if_neg hdots] at hw ⊢
      cases he : fs.entryIn p name with
      | error fault => simp [he] at hw
      | ok x =>
        cases x with
        | none => simp [he] at hw
        | some e =>
          rw [h.entryIn he]
          cases e with
          | link target =>
            simp only [he] at hw
            exact hfollow _ _ _ hw
          | folder =>
            simp only [he] at hw
            exact ih hw
          | file bytes =>
            simp only [he] at hw
            exact ih hw
          | device =>
            simp only [he] at hw
            exact ih hw

lemma resolveNames (h : fs.Extends fs') {links : Nat} {names : List String} {r : Place}
    (hr : fs.resolveNames links p names = .ok r) : fs'.resolveNames links p names = .ok r := by
  induction links generalizing p names r with
  | zero => exact h.walk (fun _ _ _ hf => hf) hr
  | succ links ih => exact h.walk (fun _ _ _ hf => ih hf) hr

lemma startOf (h : fs.Extends fs') (anchor : Anchor) : fs'.startOf anchor = fs.startOf anchor := by
  cases anchor with
  | here => simp only [FileSystem.startOf, h.here, h.lost]
  | root => rfl
  | twinRoot => rfl

end Extends

/-- The places through which a path leads to an entry. -/
lemma stat_eq_ok {e : Entry} : fs.stat q = .ok e ↔ admissible q = .ok () ∧
    ∃ place, fs.resolveNames linkLimit (fs.startOf q.anchor) q.parts = .ok place ∧
      fs.entryAt? place = some e := by
  unfold stat locate
  cases ha : admissible q with
  | error err => simp [bind, Except.bind]
  | ok u =>
    cases hr : fs.resolveNames linkLimit (fs.startOf q.anchor) q.parts with
    | error fault => simp [bind, Except.bind, blame, Except.mapError]
    | ok place =>
      cases he : fs.entryAt? place with
      | none => simp [bind, Except.bind, blame, Except.mapError, he]
      | some f => simp [bind, Except.bind, blame, Except.mapError, he]

/-- The folder that holds the last name of a path. -/
lemma locateLast_eq_named {folder : Place} : fs.locateLast q = .ok (folder, some name) ↔
    admissible q = .ok () ∧ q.parts.getLast? = some name ∧ name ≠ ".." ∧
      fs.resolveNames linkLimit (fs.startOf q.anchor) q.parts.dropLast = .ok folder ∧
      fs.entryAt? folder = some .folder := by
  unfold locateLast
  constructor
  · intro h
    cases ha : admissible q with
    | error err => simp [ha, bind, Except.bind] at h
    | ok u =>
      cases hlast : q.parts.getLast? with
      | none => simp [ha, hlast, bind, Except.bind, pure, Except.pure] at h
      | some last =>
        cases hr : fs.resolveNames linkLimit (fs.startOf q.anchor) q.parts.dropLast with
        | error fault => simp [ha, hlast, hr, bind, Except.bind, blame, Except.mapError] at h
        | ok place =>
          cases he : fs.entryAt? place with
          | none => simp [ha, hlast, hr, he, bind, Except.bind, blame, Except.mapError] at h
          | some e =>
            cases e with
            | folder =>
              simp only [ha, hlast, hr, he, bind, Except.bind, blame, Except.mapError, pure,
                Except.pure, Except.ok.injEq, Prod.mk.injEq] at h
              obtain ⟨rfl, hname⟩ := h
              split_ifs at hname with hd
              cases hname
              exact ⟨rfl, rfl, hd, rfl, he⟩
            | file bytes => simp [ha, hlast, hr, he, bind, Except.bind, blame, Except.mapError] at h
            | link target => simp [ha, hlast, hr, he, bind, Except.bind, blame, Except.mapError] at h
            | device => simp [ha, hlast, hr, he, bind, Except.bind, blame, Except.mapError] at h
  · rintro ⟨ha, hlast, hd, hr, he⟩
    simp [ha, hlast, hr, he, hd, bind, Except.bind, blame, Except.mapError, pure, Except.pure]

lemma isFile_eq_true : fs.isFile q = .ok true ↔ ∃ bytes, fs.stat q = .ok (.file bytes) := by
  unfold isFile ask
  cases hs : fs.stat q with
  | error err =>
    cases err with
    | nullCharacter => simp
    | onPath fault path => cases hf : fault.meansAbsent <;> simp [hf]
  | ok e => cases e <;> simp

lemma isFolder_eq_true : fs.isFolder q = .ok true ↔ fs.stat q = .ok .folder := by
  unfold isFolder ask
  cases hs : fs.stat q with
  | error err =>
    cases err with
    | nullCharacter => simp
    | onPath fault path => cases hf : fault.meansAbsent <;> simp [hf]
  | ok e => cases e <;> simp

/-- Bytes are read from a file, and none from a device. -/
lemma readFile_eq_ok {bytes : Bytes} : fs.readFile q = .ok bytes ↔
    fs.stat q = .ok (.file bytes) ∨ fs.stat q = .ok .device ∧ bytes = [] := by
  unfold readFile
  cases hs : fs.stat q with
  | error err => simp [bind, Except.bind]
  | ok e => cases e <;> simp [bind, Except.bind, eq_comm]

lemma readFile_of_file {bytes : Bytes} (h : fs.stat q = .ok (.file bytes)) : fs.readFile q = .ok bytes :=
  readFile_eq_ok.mpr (Or.inl h)

namespace Extends

/-- What stands at a path stands there in a larger file system. -/
lemma stat {e : Entry} (h : fs.Extends fs') (he : fs.stat q = .ok e) : fs'.stat q = .ok e := by
  obtain ⟨ha, place, hr, hp⟩ := stat_eq_ok.mp he
  refine stat_eq_ok.mpr ⟨ha, place, ?_, h.entryAt? hp⟩
  rw [h.startOf]
  exact h.resolveNames hr

lemma locateLast {folder : Place} (h : fs.Extends fs')
    (hl : fs.locateLast q = .ok (folder, some name)) : fs'.locateLast q = .ok (folder, some name) := by
  obtain ⟨ha, hlast, hd, hr, hf⟩ := locateLast_eq_named.mp hl
  refine locateLast_eq_named.mpr ⟨ha, hlast, hd, ?_, h.entryAt? hf⟩
  rw [h.startOf]
  exact h.resolveNames hr

lemma isFile (h : fs.Extends fs') (hf : fs.isFile q = .ok true) : fs'.isFile q = .ok true := by
  obtain ⟨bytes, hstat⟩ := isFile_eq_true.mp hf
  exact isFile_eq_true.mpr ⟨bytes, h.stat hstat⟩

lemma isFolder (h : fs.Extends fs') (hf : fs.isFolder q = .ok true) : fs'.isFolder q = .ok true :=
  isFolder_eq_true.mpr (h.stat (isFolder_eq_true.mp hf))

lemma readFile {bytes : Bytes} (h : fs.Extends fs') (hr : fs.readFile q = .ok bytes) :
    fs'.readFile q = .ok bytes :=
  readFile_eq_ok.mpr ((readFile_eq_ok.mp hr).imp h.stat (And.imp_left h.stat))

end Extends

/-- The path leads to this location, links in its folders followed; whether anything stands there does
not matter. -/
def Denotes (fs : FileSystem) (q : Path) (loc : Location) : Prop :=
  ∃ folder name, fs.locateLast q = .ok (folder, some name) ∧ loc = folder.location ++ [name]

lemma Denotes.of_extends (h : fs.Denotes q loc) (he : fs.Extends fs') : fs'.Denotes q loc := by
  obtain ⟨folder, name, hl, rfl⟩ := h
  exact ⟨folder, name, he.locateLast hl, rfl⟩

lemma vacancy_eq_ok (h : fs.vacancy q = .ok loc) : ∃ folder name,
    fs.locateLast q = .ok (folder, some name) ∧ fs.entryIn folder name = .ok none ∧
      loc = folder.location ++ [name] := by
  unfold vacancy at h
  cases hl : fs.locateLast q with
  | error err => simp [hl, bind, Except.bind] at h
  | ok r =>
    obtain ⟨folder, last⟩ := r
    cases last with
    | none => simp [hl, bind, Except.bind] at h
    | some name =>
      cases he : fs.entryIn folder name with
      | error fault => simp [hl, he, bind, Except.bind] at h
      | ok x =>
        cases x with
        | some e => simp [hl, he, bind, Except.bind] at h
        | none =>
          simp only [hl, he, bind, Except.bind, Except.ok.injEq] at h
          exact ⟨folder, name, rfl, he, h.symm⟩

lemma Denotes.of_vacancy (h : fs.vacancy q = .ok loc) : fs.Denotes q loc := by
  obtain ⟨folder, name, hl, -, rfl⟩ := vacancy_eq_ok h
  exact ⟨folder, name, hl, rfl⟩

lemma get?_vacancy (h : fs.vacancy q = .ok loc) : fs.get? loc = none := by
  obtain ⟨folder, name, -, he, rfl⟩ := vacancy_eq_ok h
  exact (entryIn_eq_ok.mp he).2.2.2.symm

/-- A file that was made in a vacant place is what unlinking removes there. -/
lemma unlink_of_vacancy {bytes : Bytes} (h : fs.vacancy q = .ok loc) (he : fs.Extends fs')
    (hf : fs'.get? loc = some (.file bytes)) : fs'.unlink q = .ok (fs'.erase loc) := by
  obtain ⟨folder, name, hl, hin, rfl⟩ := vacancy_eq_ok h
  obtain ⟨hlost, hfolder, hname, -⟩ := entryIn_eq_ok.mp hin
  have hin' : fs'.entryIn folder name = .ok (some (.file bytes)) :=
    entryIn_eq_ok.mpr ⟨hlost, he.keeps _ _ hfolder, hname, hf.symm⟩
  unfold unlink
  simp [he.locateLast hl, hin', bind, Except.bind]

lemma createFile_eq_ok (h : fs.createFile q = .ok (loc, fs')) :
    fs.vacancy q = .ok loc ∧ fs' = fs.set loc (.file []) := by
  unfold createFile at h
  cases hv : fs.vacancy q with
  | error err => simp [hv, bind, Except.bind] at h
  | ok l =>
    simp only [hv, bind, Except.bind, pure, Except.pure, Except.ok.injEq, Prod.mk.injEq] at h
    obtain ⟨rfl, rfl⟩ := h
    exact ⟨rfl, rfl⟩

lemma addsFolders_makeFolder (h : fs.makeFolder q = .ok fs') : fs.AddsFolders fs' := by
  unfold makeFolder at h
  cases hv : fs.vacancy q with
  | error err => simp [hv, bind, Except.bind] at h
  | ok l =>
    simp only [hv, bind, Except.bind, pure, Except.pure, Except.ok.injEq] at h
    subst h
    exact addsFolders_set (get?_vacancy hv)

lemma settle_eq_ok {err : FileError} (h : fs.settle q err = .ok fs') : fs' = fs := by
  unfold settle at h
  split at h
  · cases h
    rfl
  · cases h
  · cases h

lemma addsFolders_ensureLast (h : fs.ensureLast q = .ok fs') : fs.AddsFolders fs' := by
  unfold ensureLast at h
  split at h
  · next hm =>
    cases h
    exact addsFolders_makeFolder hm
  · cases h
  · cases h
  · rw [settle_eq_ok h]

lemma AddsFolders.ensureNext {r : Except FileError Unit × FileSystem} (h : fs.AddsFolders r.2) :
    fs.AddsFolders (ensureNext q r).2 := by
  obtain ⟨result, made⟩ := r
  cases result with
  | error err => exact h
  | ok u =>
    unfold FileSystem.ensureNext
    dsimp only
    split
    · next hl => exact h.trans (addsFolders_ensureLast hl)
    · exact h

lemma ensureFirst_succ (q : Path) (n : Nat) (fs : FileSystem) : ensureFirst q (n + 1) fs =
    match fs.ensureLast { q with parts := q.parts.take (n + 1) } with
    | .ok fs' => (.ok (), fs')
    | .error e =>
      if e.isMissing then ensureNext { q with parts := q.parts.take (n + 1) } (ensureFirst q n fs)
      else (.error e, fs) := by rfl

/-- Folders that are made on the way to a path are made in vacant places. -/
lemma addsFolders_ensureFirst (q : Path) (n : Nat) (fs : FileSystem) :
    fs.AddsFolders (ensureFirst q n fs).2 := by
  induction n generalizing fs with
  | zero => exact AddsFolders.ensureNext (.refl fs)
  | succ n ih =>
    rw [ensureFirst_succ]
    split
    · next hl => exact addsFolders_ensureLast hl
    · split_ifs
      · exact AddsFolders.ensureNext (ih fs)
      · rfl

lemma addsFolders_ensureFolder (fs : FileSystem) (q : Path) : fs.AddsFolders (fs.ensureFolder q).2 :=
  addsFolders_ensureFirst q _ fs

end FileSystem

end Stubsmith.Files
