import Stubsmith.Generation.Target
import Stubsmith.Proofs.Files.Inventory
import Stubsmith.Proofs.Text.Joining
import Stubsmith.Writer.Python

/-!
# Stub files mirror their inputs

The stub file of an input lies under the output root in the folders in which the input lies under the input
root, and its name is made from the stem of the input. Two inputs share their stub file only if they lie in one folder
and their stems differ at most in hyphens and underscores.
-/
namespace Stubsmith.Files

/-- No name of the path holds a slash, as in every path that is read from a text. -/
def Path.Slashless (p : Path) : Prop := ∀ name ∈ p.parts, '/' ∉ name.toList

/-- No entry has a slash in its name. -/
def FileSystem.Slashless (fs : FileSystem) : Prop := ∀ a ∈ fs.entries, ∀ name ∈ a.1.getLast?, '/' ∉ name.toList

lemma Path.slashless_ofString (s : String) : (Path.ofString s).Slashless := by
  intro name hname
  obtain ⟨t, ht, rfl⟩ := List.mem_map.mp (List.mem_filter.mp hname).1
  rw [String.toList_ofList]
  exact Text.not_mem_of_mem_fields ht

lemma Path.Slashless.name {p : Path} (h : p.Slashless) : '/' ∉ p.name.toList := by
  unfold Path.name
  cases hlast : p.parts.getLast? with
  | none => simp
  | some name => exact h name (List.mem_of_getLast? hlast)

/-- The name is cut at its last dot, with something on either side of it. -/
structure CutAtDot (name stem ending : List Char) : Prop where
  joined : name = stem ++ '.' :: ending
  stem_ne : stem ≠ []
  ending_ne : ending ≠ []
  last : '.' ∉ ending

/-- The stem is what stands before such a dot, and the whole name where there is none. -/
def IsStem (name stem : List Char) : Prop :=
  (∃ ending, CutAtDot name stem ending) ∨ stem = name ∧ ∀ front ending, ¬ CutAtDot name front ending

/-- A name is cut at its last dot by reading it from its end. -/
lemma CutAtDot.reverse {name stem ending : List Char} (h : CutAtDot name stem ending) :
    name.reverse.takeWhile (· != '.') = ending.reverse ∧
      name.reverse.drop (ending.length + 1) = stem.reverse := by
  have hreverse : name.reverse = ending.reverse ++ '.' :: stem.reverse := by simp [h.joined]
  constructor
  · rw [hreverse, List.takeWhile_append_of_pos]
    · simp
    · intro c hc
      have hne : c ≠ '.' := fun he => h.last (he ▸ List.mem_reverse.mp hc)
      simpa using hne
  · rw [hreverse, ← List.length_reverse, ← List.drop_drop, List.drop_left]
    rfl

lemma isStem_stemOf (name : List Char) : IsStem name (Path.stemOf name) := by
  unfold Path.stemOf
  dsimp only
  set ending := name.reverse.takeWhile (· != '.') with hending
  set rest := name.reverse.drop (ending.length + 1) with hrest
  split_ifs with hempty
  · refine Or.inr ⟨rfl, fun front back hcut => ?_⟩
    obtain ⟨hback, hfront⟩ := hcut.reverse
    rw [← hending] at hback
    rw [hback, List.length_reverse, hfront] at hrest
    simp [hback, hrest, hcut.stem_ne, hcut.ending_ne] at hempty
  · simp only [Bool.or_eq_true, List.isEmpty_iff, not_or] at hempty
    refine Or.inl ⟨ending.reverse, ?_, by simpa using hempty.2, by simpa using hempty.1, ?_⟩
    · have hdrop : name.reverse.dropWhile (· != '.') = '.' :: rest := by
        have htail : (name.reverse.dropWhile (· != '.')).tail = rest := by
          have hcut : name.reverse.drop ending.length = name.reverse.dropWhile (· != '.') := by
            conv_lhs => rw [← List.takeWhile_append_dropWhile (p := (· != '.')) (l := name.reverse)]
            exact List.drop_left
          rw [hrest, ← List.drop_drop, hcut, List.drop_one]
        cases hcut : name.reverse.dropWhile (· != '.') with
        | nil =>
          rw [hcut] at htail
          exact absurd htail.symm hempty.2
        | cons c cs =>
          have hhead := List.head?_dropWhile_not (· != '.') name.reverse
          rw [hcut] at hhead htail
          have hc : c = '.' := by simpa using hhead
          rw [hc, ← htail, List.tail_cons]
      have hsplit : name.reverse = ending ++ '.' :: rest := by
        rw [← hdrop, hending, List.takeWhile_append_dropWhile]
      simpa using congrArg List.reverse hsplit
    · intro hdot
      have hne := List.mem_takeWhile_imp (List.mem_reverse.mp hdot)
      simp at hne

lemma Path.isStem_stem (p : Path) : IsStem p.name.toList p.stem.toList := by
  rw [Path.stem, String.toList_ofList]
  exact isStem_stemOf _

lemma IsStem.not_mem {name stem : List Char} {c : Char} (h : IsStem name stem) (hc : c ∉ name) : c ∉ stem := by
  rcases h with ⟨ending, hcut⟩ | ⟨rfl, -⟩
  · rw [hcut.joined] at hc
    exact fun hmem => hc (List.mem_append_left _ hmem)
  · exact hc

end Stubsmith.Files

namespace Stubsmith.Generation

open Files (Path FileSystem IsStem)
open Files.FileSystem

variable {fs : FileSystem} {root out input : Path} {recursive : Bool} {files : List Path}

/-- The folders between a root and an input under it. -/
def foldersBelow (root input : Path) : List String := (input.parts.drop root.parts.length).dropLast

/-- The input is the root, or it has a name of its own in the folders below the root. -/
def Inside (root input : Path) : Prop :=
  input = root ∨ input = ⟨root.anchor, root.parts ++ foldersBelow root input ++ [input.name]⟩

lemma inside_of_parts {dirs : List String} {name : String}
    (h : input = ⟨root.anchor, root.parts ++ (dirs ++ [name])⟩) : Inside root input := by
  subst h
  exact Or.inr (by simp [foldersBelow, Path.name])

lemma slash_of_mem_list (hfs : fs.Slashless) {folder : Path} {names : List String} {x : String}
    (hlist : fs.list folder = .ok names) (hx : x ∈ names) : '/' ∉ x.toList := by
  obtain ⟨-, p, -, -, rfl⟩ := list_eq_ok.mp hlist
  split_ifs at hx
  · rw [FileSystem.names, List.mem_mergeSort, List.mem_filterMap] at hx
    obtain ⟨a, ha, hlast⟩ := hx
    exact hfs a (List.mem_filter.mp ha).1 x hlast
  · cases hx

/-- More names lead from a folder to the path, and no slash is in the last of them. -/
def NamedBelow (folder f : Path) : Prop := ∃ dirs name, f = folder.descend (dirs ++ [name]) ∧ '/' ∉ name.toList

lemma namedBelow_filesIn (hfs : fs.Slashless) (levels : Nat) (folder : Path) :
    (fs.filesIn recursive levels folder).All (NamedBelow folder) := by
  refine all_filesIn_of (fun folder names x hlist hx => ⟨?_, ?_⟩) levels folder
  · exact ⟨[], x, by simp [Path.descend_cons], slash_of_mem_list hfs hlist hx⟩
  · rintro f ⟨dirs, name, rfl, hname⟩
    exact ⟨x :: dirs, name, by rw [List.cons_append, Path.descend_cons], hname⟩

/-- Every input is inside the root, and no slash is in its name. -/
lemma inside_discover (hfs : fs.Slashless) (hroot : root.Slashless) :
    (fs.discover root recursive).All fun f => Inside root f ∧ '/' ∉ f.name.toList := by
  refine all_discover_of ⟨Or.inl rfl, hroot.name⟩ fun found hfound f hf => ?_
  obtain ⟨dirs, name, rfl, hname⟩ := namedBelow_filesIn hfs _ root found hfound f hf
  exact ⟨inside_of_parts rfl, by simpa [Path.name, Path.descend] using hname⟩

/-- The text with its hyphens replaced by underscores. -/
def underscored (base : String) : String := String.ofList (Text.joinWith ['_'] (Text.fields '-' base.toList))

/-- To put other characters for some is to part the text at these and to join the parts by the others. -/
lemma joinWith_fields (old new : Char) (cs : List Char) :
    Text.joinWith [new] (Text.fields old cs) = cs.map fun c => if c = old then new else c := by
  induction cs with
  | nil => rfl
  | cons c cs ih =>
    obtain ⟨t, ts, hfields⟩ := List.exists_cons_of_ne_nil (Text.fields_ne_nil old cs)
    rw [hfields] at ih
    rw [Text.fields_cons, hfields, List.map_cons, ← ih]
    split_ifs with hc
    · rfl
    · exact Text.joinWith_lead [new] [c] t ts

lemma toList_underscored (base : String) :
    (underscored base).toList = base.toList.map fun c => if c = '-' then '_' else c := by
  rw [underscored, joinWith_fields, String.toList_ofList]

lemma moduleName_coe (base : String) : Python.moduleName base = underscored base := by
  rw [Python.moduleName, toList_underscored, Text.points, Text.points, List.map_map, List.map_map]
  refine List.map_congr_left fun c _ => ?_
  by_cases hc : c = '-' <;> simp [hc]

lemma fileName_python (base : String) : Python.writer.fileName base = underscored base ++ "_service.py" := by
  change Text.charText (Python.fileName base) = _
  rw [Python.fileName, moduleName_coe, ← Text.points_append, Text.charText, Text.chars_points,
    ← String.toList_append, String.ofList_toList]

lemma slash_underscored {base : String} (h : '/' ∉ base.toList) : '/' ∉ (underscored base).toList := by
  rw [toList_underscored, List.mem_map]
  rintro ⟨c, hc, he⟩
  split_ifs at he
  · exact absurd he (by decide)
  · exact h (he ▸ hc)

/-- The file name of a stub is a single name. -/
lemma ofString_fileName {base : String} (h : '/' ∉ base.toList) :
    Path.ofString (Python.writer.fileName base) = ⟨.here, [underscored base ++ "_service.py"]⟩ := by
  rw [fileName_python]
  have hslash : '/' ∉ (underscored base ++ "_service.py").toList := by
    rw [String.toList_append, List.mem_append, not_or]
    exact ⟨slash_underscored h, by decide⟩
  have hmem : '_' ∈ (underscored base ++ "_service.py").toList := by simp
  generalize underscored base ++ "_service.py" = name at hslash hmem
  have hanchor : Path.anchorOf name.toList = .here := by
    have hnone : name.toList.takeWhile (· == '/') = [] := by
      cases hchars : name.toList with
      | nil => rfl
      | cons c cs =>
        rw [hchars, List.mem_cons, not_or] at hslash
        simp [Ne.symm hslash.1]
    simp [Path.anchorOf, hnone]
  have hname : Path.isName name = true := by
    have hne : ∀ other : String, '_' ∉ other.toList → name ≠ other := fun other hnot he => hnot (he ▸ hmem)
    simp [Path.isName, hne "" (by decide), hne "." (by decide)]
  rw [Path.ofString, Text.fields_of_not_mem hslash, hanchor]
  simp [hname]

/-- The stub file of an input lies in the folders of the input, under the output root. -/
lemma outputPath_python (h : Inside root input) (hslash : '/' ∉ input.name.toList) :
    outputPath input root out Python.writer =
      .ok ⟨out.anchor, out.parts ++ foldersBelow root input ++ [underscored input.stem ++ "_service.py"]⟩ := by
  have hfile : Path.ofString (Python.writer.fileName (baseName input)) =
      ⟨.here, [underscored input.stem ++ "_service.py"]⟩ :=
    ofString_fileName (input.isStem_stem.not_mem hslash)
  rw [outputPath, hfile]
  by_cases hroot : input = root
  · rw [if_pos hroot]
    simp [Path.join, Path.isAbsolute, hroot, foldersBelow]
  · have hinput := h.resolve_left hroot
    have hrelative : input.relativeTo? root = some ⟨.here, input.parts.drop root.parts.length⟩ := by
      rw [hinput]
      simp [Path.relativeTo?]
    rw [if_neg hroot, hrelative]
    simp [Path.join, Path.isAbsolute, Path.parent, foldersBelow]

/-- The stub files of all inputs under a root lie under the output root as the inputs lie under theirs. Two inputs have
the same stub file exactly if they lie in one folder and their stems differ in hyphens and underscores only. -/
theorem outputPath_mirrors (hfs : fs.Slashless) (hroot : root.Slashless)
    (hfound : (fs.discover root recursive).result = .ok files) (out : Path) :
    (∀ f ∈ files, Inside root f ∧ IsStem f.name.toList f.stem.toList ∧
      outputPath f root out Python.writer =
        .ok ⟨out.anchor, out.parts ++ foldersBelow root f ++ [underscored f.stem ++ "_service.py"]⟩) ∧
    ∀ f ∈ files, ∀ g ∈ files, outputPath f root out Python.writer = outputPath g root out Python.writer ↔
      foldersBelow root f = foldersBelow root g ∧ underscored f.stem = underscored g.stem := by
  have htarget : ∀ f ∈ files, Inside root f ∧ outputPath f root out Python.writer =
      .ok ⟨out.anchor, out.parts ++ foldersBelow root f ++ [underscored f.stem ++ "_service.py"]⟩ := by
    intro f hf
    obtain ⟨hinside, hslash⟩ := inside_discover hfs hroot files hfound f hf
    exact ⟨hinside, outputPath_python hinside hslash⟩
  refine ⟨fun f hf => ⟨(htarget f hf).1, f.isStem_stem, (htarget f hf).2⟩, fun f hf g hg => ?_⟩
  rw [(htarget f hf).2, (htarget g hg).2, Except.ok.injEq, Files.Path.mk.injEq]
  simp

/-- A folder in which the stems of two files differ in a hyphen, and a third one begins with its only dot. -/
def hyphenated : FileSystem where
  entries := [(["p"], .folder), (["p", ".c"], .file []), (["p", "a-b.p"], .file []), (["p", "a_b.x"], .file [])]
  here := []

lemma hyphenated_found : (hyphenated.discover (.ofString "p") true).result =
    .ok [.ofString "p/.c", .ofString "p/a-b.p", .ofString "p/a_b.x"] := by
  have hlinks : hyphenated.LinkFree := by decide +kernel
  exact hlinks.discover_of_files ["p"] [".c", "a-b.p", "a_b.x"] (by decide +kernel) (by cbv) (by decide +kernel)

theorem hyphenated_mirrored : hyphenated.Slashless ∧ (Path.ofString "p").Slashless ∧
    outputPath (.ofString "p/.c") (.ofString "p") (.ofString "o") Python.writer =
      .ok (.ofString "o/.c_service.py") ∧
    outputPath (.ofString "p/a-b.p") (.ofString "p") (.ofString "o") Python.writer =
      outputPath (.ofString "p/a_b.x") (.ofString "p") (.ofString "o") Python.writer := by
  have hfs : hyphenated.Slashless := by
    unfold FileSystem.Slashless
    decide +kernel
  obtain ⟨htarget, hshared⟩ := outputPath_mirrors hfs (Path.slashless_ofString "p") hyphenated_found (.ofString "o")
  refine ⟨hfs, Path.slashless_ofString "p", ?_, ?_⟩
  · rw [(htarget _ (by simp)).2.2]
    decide +kernel
  · exact (hshared _ (by simp) _ (by simp)).mpr (by decide +kernel)

end Stubsmith.Generation
