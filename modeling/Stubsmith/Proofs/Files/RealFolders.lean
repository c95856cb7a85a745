import Stubsmith.Proofs.Files.Standing

/-!
# The real paths of folders

The path of a folder from the root meets no link, so that it is its own real path, and so is that of the working
folder while that is there. What a path from the root leads to does not depend on the working folder.
-/
namespace Stubsmith.Files.FileSystem

variable {fs fs' : FileSystem} {loc : Location} {names : List String} {q : Path}

/-- What stands below a location makes it a folder. -/
lemma WellFormed.folder_of_append (hw : fs.WellFormed) (h : fs.get? (loc ++ names) = some .folder) :
    fs.get? loc = some .folder := by
  cases names with
  | nil => rwa [List.append_nil] at h
  | cons name rest =>
    by_contra hno
    rw [hw.vacant_below hno name rest] at h
    cases h

/-- From a folder, the names of folders lead to the last of them, unless a name is too long. -/
lemma WellFormed.walk_folders (hw : fs.WellFormed) (follow : Place → List String → Except Fault Place)
    (h : fs.get? (loc ++ names) = some .folder) :
    fs.walk follow ⟨loc, 0⟩ names = .ok ⟨loc ++ names, 0⟩ ∨
      fs.walk follow ⟨loc, 0⟩ names = .error .nameTooLong := by
  induction names generalizing loc with
  | nil => exact Or.inl (by rw [List.append_nil]; rfl)
  | cons name rest ih =>
    have hall : fs.get? ((loc ++ [name]) ++ rest) = some .folder := by simpa using h
    have hnext : fs.get? (loc ++ [name]) = some .folder := hw.folder_of_append hall
    have hplain : IsPlain name := hw.plain_of_child hnext
    rw [walk_cons, if_neg (by simp [hplain.1, hplain.2.1, hplain.2.2])]
    simp only [entryIn, hw.folder_of_append h, ne_eq, not_true_eq_false, if_false]
    by_cases hlong : nameLimit < name.utf8ByteSize
    · simp [hlong]
    · simpa [hlong, hnext] using ih hall

lemma WellFormed.resolveNames_folders (hw : fs.WellFormed) (links : Nat) (h : fs.get? loc = some .folder) :
    fs.resolveNames links ⟨[], 0⟩ loc = .ok ⟨loc, 0⟩ ∨ fs.resolveNames links ⟨[], 0⟩ loc = .error .nameTooLong := by
  cases links with
  | zero => exact hw.walk_folders _ h
  | succ links => exact hw.walk_folders _ h

/-- No link stands where a folder does. -/
lemma WellFormed.linkAt?_folder (hw : fs.WellFormed) (h : fs.get? loc = some .folder) :
    fs.linkAt? (pathOf loc) = none := by
  unfold linkAt?
  split
  · next place name hlast =>
    obtain ⟨-, hname, -, hto, -⟩ := locateLast_eq_named.mp hlast
    have hloc : loc = loc.dropLast ++ [name] := (List.dropLast_append_getLast? name hname).symm
    have hplace : place = ⟨loc.dropLast, 0⟩ := by
      rcases hw.resolveNames_folders linkLimit (hw.folder_dropLast h) with hok | herror
      · exact Except.ok.inj (hto.symm.trans hok)
      · cases hto.symm.trans herror
    split
    · next target hin =>
      obtain ⟨-, -, -, hentry⟩ := entryIn_eq_ok.mp hin
      rw [hplace, ← hloc, h] at hentry
      cases hentry
    · rfl
  · rfl

/-- On the way to a folder there is no link to follow. -/
lemma WellFormed.realWalk_folders (hw : fs.WellFormed) (follow : Path → List String → LinksSeen → RealStep)
    (seen : LinksSeen) (h : fs.get? (loc ++ names) = some .folder) :
    fs.realWalk follow (pathOf loc) names seen = ⟨pathOf (loc ++ names), true, seen⟩ := by
  induction names generalizing loc with
  | nil => rw [List.append_nil]; rfl
  | cons name rest ih =>
    have hall : fs.get? ((loc ++ [name]) ++ rest) = some .folder := by simpa using h
    have hnext : fs.get? (loc ++ [name]) = some .folder := hw.folder_of_append hall
    have hplain : IsPlain name := hw.plain_of_child hnext
    have hchild : (pathOf loc).child name = pathOf (loc ++ [name]) := rfl
    rw [realWalk, if_neg (by simp [hplain.1, hplain.2.1]), if_neg hplain.2.2, hchild]
    simpa [hw.linkAt?_folder hnext] using ih hall

lemma WellFormed.realNames_folders (hw : fs.WellFormed) (depth : Nat) (h : fs.get? loc = some .folder) :
    fs.realNames depth (pathOf []) loc [] = ⟨pathOf loc, true, []⟩ := by
  cases depth with
  | zero => exact hw.realWalk_folders _ [] h
  | succ depth => exact hw.realWalk_folders _ [] h

lemma WellFormed.plainNames_folders (hw : fs.WellFormed) (h : fs.get? (loc ++ names) = some .folder) :
    plainNames loc names = loc ++ names := by
  induction names generalizing loc with
  | nil => rw [List.append_nil]; rfl
  | cons name rest ih =>
    have hall : fs.get? ((loc ++ [name]) ++ rest) = some .folder := by simpa using h
    have hplain : IsPlain name := hw.plain_of_child (hw.folder_of_append hall)
    rw [plainNames, if_neg (by simp [hplain.1, hplain.2.1]), if_neg hplain.2.2, ih hall, List.append_assoc,
      List.singleton_append]

/-- The way to a folder does not have too many links. -/
lemma WellFormed.stat_folder (hw : fs.WellFormed) (h : fs.get? loc = some .folder) (q : Path) :
    fs.stat (pathOf loc) ≠ .error (.onPath .tooManyLinks q) := by
  unfold stat locate
  cases hadmissible : admissible (pathOf loc) with
  | error err =>
    unfold admissible at hadmissible
    split_ifs at hadmissible <;> cases hadmissible <;> simp [bind, Except.bind]
  | ok u =>
    have hway : fs.resolveNames linkLimit (fs.startOf (pathOf loc).anchor) (pathOf loc).parts = .ok ⟨loc, 0⟩ ∨
        fs.resolveNames linkLimit (fs.startOf (pathOf loc).anchor) (pathOf loc).parts = .error .nameTooLong :=
      hw.resolveNames_folders linkLimit h
    rcases hway with hok | herror
    · simp [hok, entryAt?, h, bind, Except.bind, blame, Except.mapError]
    · simp [herror, bind, Except.bind, blame, Except.mapError]

/-- A way that leads to a folder without meeting a link leads to its real path. -/
lemma WellFormed.realPath_eq (hw : fs.WellFormed) (h : fs.get? loc = some .folder) {q reached : Path}
    (hnull : '\x00' ∉ q.text.toList)
    (hreached : (fs.realNames fs.linkDepth ⟨if q.isAbsolute then .root else .here, []⟩ q.parts []).path = reached)
    (hstart : (fs.startOf reached.anchor).lost = 0)
    (hlocation : (fs.startOf reached.anchor).location ++ reached.parts = loc) :
    fs.realPath q = .ok (pathOf loc) := by
  have hreal : fs.plainPath reached = pathOf loc := by
    rw [plainPath, hw.plainNames_folders (by rwa [hlocation]), hlocation]
  simp only [realPath, List.contains_iff_mem, hnull, if_false, hreached, isAdrift, hstart, hreal]
  split
  · next hadrift => simp at hadrift
  · split
    · next hstat => exact absurd hstat (hw.stat_folder h _)
    · rfl

/-- The path of a folder is its own real path. -/
theorem WellFormed.realPath_folder (hw : fs.WellFormed) (h : fs.get? loc = some .folder)
    (hnull : '\x00' ∉ (pathOf loc).text.toList) : fs.realPath (pathOf loc) = .ok (pathOf loc) :=
  hw.realPath_eq h hnull (congrArg RealStep.path (hw.realNames_folders fs.linkDepth h)) rfl (List.nil_append loc)

lemma path_realNames_nil (depth : Nat) (q : Path) : (fs.realNames depth q [] []).path = q := by
  cases depth <;> rfl

/-- The real path of the working folder leads to it from the root. -/
theorem WellFormed.realPath_here (hw : fs.WellFormed) (hlost : fs.lost = 0) :
    fs.realPath ⟨.here, []⟩ = .ok (pathOf fs.here) := by
  have hhere : fs.get? fs.here = some .folder := by simpa [hlost] using hw.standing.2
  exact hw.realPath_eq hhere (by decide) (path_realNames_nil fs.linkDepth ⟨.here, []⟩) hlost (List.append_nil fs.here)

/-- A working folder that was removed has no real path. -/
theorem realPath_here_lost (hlost : fs.lost ≠ 0) : fs.realPath ⟨.here, []⟩ = .error .workingFolderLost := by
  have hnull : '\x00' ∉ (Path.text ⟨.here, []⟩).toList := by decide
  simp [realPath, hnull, Path.isAbsolute, path_realNames_nil, isAdrift, startOf, hlost]

section Elsewhere

variable (h : fs'.entries = fs.entries)
include h

lemma get?_elsewhere (loc : Location) : fs'.get? loc = fs.get? loc := by
  simp only [get?, h]

lemma walk_elsewhere (follow : Place → List String → Except Fault Place) (p : Place) (names : List String) :
    fs'.walk follow p names = fs.walk follow p names := by
  induction names generalizing p with
  | nil => rfl
  | cons name rest ih => simp only [walk_cons, entryAt?, entryIn, get?_elsewhere h, ih]

lemma resolveNames_elsewhere (links : Nat) (p : Place) (names : List String) :
    fs'.resolveNames links p names = fs.resolveNames links p names := by
  induction links generalizing p names with
  | zero => exact walk_elsewhere h _ p names
  | succ links ih =>
    have hfollow : fs'.resolveNames links = fs.resolveNames links := by
      funext p names
      exact ih p names
    rw [resolveNames, resolveNames, hfollow]
    exact walk_elsewhere h _ p names

/-- What a path from the root leads to is there for every working folder. -/
theorem stat_elsewhere (hq : q.anchor ≠ .here) : fs'.stat q = fs.stat q := by
  have hstart : fs'.startOf q.anchor = fs.startOf q.anchor := by
    cases ha : q.anchor with
    | here => exact absurd ha hq
    | root => rfl
    | twinRoot => rfl
  simp only [stat, locate, hstart, resolveNames_elsewhere h, entryAt?, get?_elsewhere h]

end Elsewhere

end Stubsmith.Files.FileSystem
