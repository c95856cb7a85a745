import Mathlib.Data.List.Lex
import Mathlib.Data.List.Permutation
import Stubsmith.Proofs.Files.Faults
import Stubsmith.Proofs.Files.Standing

/-!
# All files, once and in order

A search in a folder finds the files that can be reached from it through folders, links followed, each under every list
of names that leads to it. The lists come in the order of their names, compared by code points. The search goes on to
its end unless it comes to an entry whose path, or the target of whose link, is too long to be looked up.
-/
namespace Stubsmith.Files

/-- The path that leads on along more names. -/
def Path.descend (p : Path) (ns : List String) : Path := ⟨p.anchor, p.parts ++ ns⟩

@[simp] lemma Path.descend_nil (p : Path) : p.descend [] = p := by
  simp [descend]

lemma Path.descend_cons (p : Path) (x : String) (ns : List String) :
    p.descend (x :: ns) = (p.child x).descend ns := by
  simp [descend, child]

/-- Names are compared by the code points of their characters. -/
def NameBefore (a b : String) : Prop := List.Lex (fun c d : Char => c.toNat < d.toNat) a.toList b.toList

/-- Lists of names are compared name by name. -/
def Before (ns ms : List String) : Prop := List.Lex NameBefore ns ms

lemma nameBefore_of_le {a b : String} (hle : a ≤ b) (hne : a ≠ b) : NameBefore a b := by
  have hlt : a < b := by
    by_contra hnot
    exact hne (String.le_antisymm hle (String.not_lt.mp hnot))
  exact List.Lex.imp (fun c d hcd => hcd) _ _ hlt

lemma size_le_intercalate_cons (x : String) (xs : List String) :
    x.utf8ByteSize + (String.intercalate "/" xs).utf8ByteSize ≤ (String.intercalate "/" (x :: xs)).utf8ByteSize := by
  cases xs with
  | nil => simp [String.intercalate_singleton]
  | cons y ys =>
    rw [String.intercalate_cons_cons, String.utf8ByteSize_append, String.utf8ByteSize_append]
    omega

/-- Each name adds to the length of the joined names. -/
lemma length_le_intercalate (xs : List String) {ns : List String} (h : ∀ name ∈ ns, name ≠ "") :
    ns.length ≤ (String.intercalate "/" (xs ++ ns)).utf8ByteSize := by
  induction xs with
  | nil =>
    induction ns with
    | nil => exact Nat.zero_le _
    | cons y ys ih =>
      rw [List.forall_mem_cons] at h
      have hsize := size_le_intercalate_cons y ys
      have hpos : y.utf8ByteSize ≠ 0 := fun hzero => h.1 (String.utf8ByteSize_eq_zero_iff.mp hzero)
      have hrest := ih h.2
      rw [List.nil_append] at hrest ⊢
      rw [List.length_cons]
      omega
  | cons x xs ih =>
    have hsize := size_le_intercalate_cons x (xs ++ ns)
    rw [List.cons_append]
    omega

/-- A path with many names is long. -/
lemma length_le_text (p : Path) {ns : List String} (h : ∀ name ∈ ns, name ≠ "") :
    ns.length ≤ (p.descend ns).text.utf8ByteSize := by
  cases ns with
  | nil => exact Nat.zero_le _
  | cons y ys =>
    have htext : (p.descend (y :: ys)).text = p.anchor.text ++ String.intercalate "/" (p.parts ++ y :: ys) := by
      simp [Path.text, Path.descend]
    have hnames := length_le_intercalate p.parts h
    rw [htext, String.utf8ByteSize_append]
    omega

namespace FileSystem

variable {fs : FileSystem} {root folder q : Path} {x : String} {ns names : List String} {recursive : Bool}
variable {files : List Path}

/-- Folders stand at the root and all along the names, except at the last of them. -/
def WayOpen (fs : FileSystem) (root : Path) (ns : List String) : Prop :=
  ∀ us, us <+: ns → us ≠ ns → fs.isFolder (root.descend us) = .ok true

/-- The names lead from the root through folders to a file. -/
structure HoldsFile (fs : FileSystem) (root : Path) (ns : List String) : Prop where
  named : ns ≠ []
  plain : ∀ name ∈ ns, IsPlain name
  way : fs.WayOpen root ns
  file : fs.isFile (root.descend ns) = .ok true

/-- The names lead from the root through folders to an entry. -/
structure Visited (fs : FileSystem) (root : Path) (ns : List String) : Prop where
  plain : ∀ name ∈ ns, IsPlain name
  way : fs.WayOpen root ns
  listed : ∃ us x names, ns = us ++ [x] ∧ fs.list (root.descend us) = .ok names ∧ x ∈ names

/-- The path, or a name on the way that it leads, is too long to be looked up. -/
def Overlong (fs : FileSystem) (q : Path) : Prop := fs.stat q = .error (.onPath .nameTooLong q)

/-- A search that does not go into folders takes one name only. -/
def InReach (recursive : Bool) (ns : List String) : Prop := recursive = false → ns.length = 1

lemma wayOpen_cons : fs.WayOpen root (x :: ns) ↔
    fs.isFolder root = .ok true ∧ fs.WayOpen (root.child x) ns := by
  constructor
  · intro h
    refine ⟨by simpa using h [] List.nil_prefix (by simp), fun us hus hne => ?_⟩
    rw [← Path.descend_cons]
    exact h (x :: us) ((List.prefix_cons_inj x).mpr hus) (by simpa using hne)
  · rintro ⟨hroot, hway⟩ us hus hne
    rcases List.prefix_cons_iff.mp hus with rfl | ⟨vs, rfl, hvs⟩
    · simpa using hroot
    · rw [Path.descend_cons]
      exact hway vs hvs (by simpa using hne)

lemma holdsFile_cons : fs.HoldsFile root (x :: ns) ↔ IsPlain x ∧ fs.isFolder root = .ok true ∧
    (ns = [] ∧ fs.isFile (root.child x) = .ok true ∨ fs.HoldsFile (root.child x) ns) := by
  constructor
  · rintro ⟨-, hplain, hway, hfile⟩
    rw [List.forall_mem_cons] at hplain
    rw [wayOpen_cons] at hway
    rw [Path.descend_cons] at hfile
    refine ⟨hplain.1, hway.1, ?_⟩
    by_cases hns : ns = []
    · subst hns
      exact Or.inl ⟨rfl, by simpa using hfile⟩
    · exact Or.inr ⟨hns, hplain.2, hway.2, hfile⟩
  · rintro ⟨hx, hroot, ⟨rfl, hfile⟩ | ⟨-, hplain, hway, hfile⟩⟩
    · refine ⟨by simp, by simpa using hx, wayOpen_cons.mpr ⟨hroot, ?_⟩, by simpa [Path.descend_cons] using hfile⟩
      intro us hus hne
      exact absurd (List.prefix_nil.mp hus) hne
    · refine ⟨by simp, List.forall_mem_cons.mpr ⟨hx, hplain⟩, wayOpen_cons.mpr ⟨hroot, hway⟩, ?_⟩
      rwa [Path.descend_cons]

/-- An entry of a folder is visited. -/
lemma Visited.entry (hfolder : fs.isFolder folder = .ok true) (hx : IsPlain x) (hlist : fs.list folder = .ok names)
    (hmem : x ∈ names) : fs.Visited folder [x] := by
  refine ⟨by simpa using hx, wayOpen_cons.mpr ⟨hfolder, ?_⟩, [], x, names, rfl, by simpa using hlist, hmem⟩
  intro us hus hne
  exact absurd (List.prefix_nil.mp hus) hne

/-- What is visited in a folder below is visited. -/
lemma Visited.below (hfolder : fs.isFolder folder = .ok true) (hx : IsPlain x)
    (h : fs.Visited (folder.child x) ns) : fs.Visited folder (x :: ns) := by
  obtain ⟨us, y, names, rfl, hlist, hmem⟩ := h.listed
  refine ⟨List.forall_mem_cons.mpr ⟨hx, h.plain⟩, wayOpen_cons.mpr ⟨hfolder, h.way⟩, x :: us, y, names, rfl, ?_, hmem⟩
  rwa [Path.descend_cons]

/-- An entry that is visited is that of the first name, or is visited in the folder of this name. -/
lemma Visited.cases_cons (h : fs.Visited folder (x :: ns)) : ns = [] ∨
    fs.isFolder (folder.child x) = .ok true ∧ fs.Visited (folder.child x) ns := by
  obtain ⟨us, y, names, hns, hlist, hmem⟩ := h.listed
  have hway := (wayOpen_cons.mp h.way).2
  cases us with
  | nil =>
    cases hns
    exact Or.inl rfl
  | cons z us =>
    cases hns
    refine Or.inr ⟨by simpa using hway [] List.nil_prefix (by simp), (List.forall_mem_cons.mp h.plain).2, hway, us, y,
      names, rfl, ?_, hmem⟩
    rwa [← Path.descend_cons]

lemma list_eq_ok : fs.list q = .ok names ↔ admissible q = .ok () ∧
    ∃ p, fs.resolveNames linkLimit (fs.startOf q.anchor) q.parts = .ok p ∧ fs.entryAt? p = some .folder ∧
      names = if p.lost = 0 then fs.names p.location else [] := by
  unfold list locate
  cases admissible q with
  | error e => simp [bind, Except.bind]
  | ok u =>
    cases fs.resolveNames linkLimit (fs.startOf q.anchor) q.parts with
    | error fault => simp [bind, Except.bind, blame, Except.mapError]
    | ok p =>
      cases hentry : fs.entryAt? p with
      | none => simp [bind, Except.bind, blame, Except.mapError, hentry]
      | some e => cases e <;> simp [bind, Except.bind, blame, Except.mapError, hentry, eq_comm]

lemma plain_of_mem_list (hw : fs.WellFormed) (hlist : fs.list folder = .ok names) (hx : x ∈ names) : IsPlain x := by
  obtain ⟨-, p, -, -, rfl⟩ := list_eq_ok.mp hlist
  split_ifs at hx
  · obtain ⟨e, he⟩ := Option.isSome_iff_exists.mp ((mem_names hw).mp hx)
    exact hw.plain_of_child he
  · cases hx

lemma ordered_list (hw : fs.WellFormed) (hlist : fs.list folder = .ok names) : names.Pairwise NameBefore := by
  obtain ⟨-, p, -, -, rfl⟩ := list_eq_ok.mp hlist
  split_ifs
  · exact (names_ordered hw).imp fun hab => nameBefore_of_le hab.1 hab.2
  · exact .nil

/-- Whatever stands in a folder is listed. -/
lemma mem_list_of_stat (hw : fs.WellFormed) (hlist : fs.list folder = .ok names) (hx : IsPlain x) {e : Entry}
    (hstat : fs.stat (folder.child x) = .ok e) : x ∈ names := by
  obtain ⟨-, p, hp, hfolder, rfl⟩ := list_eq_ok.mp hlist
  obtain ⟨-, r, hr, -⟩ := stat_eq_ok.mp hstat
  have hdots : ¬ (x = "" || x = "." || x = "..") = true := by simp [hx.1, hx.2.1, hx.2.2]
  -- A name that the folder does not hold would not have been resolved.
  have hheld : ∀ fault, (fs.entryIn p x = .error fault ∨ fault = .missing ∧ fs.entryIn p x = .ok none) → False := by
    intro fault hin
    have hlast : ∀ follow, fs.walk follow p [x] = .error fault := by
      intro follow
      rw [walk_cons, if_neg hdots]
      rcases hin with hin | ⟨rfl, hin⟩
      · rw [hin]
      · rw [hin]
    have hnone := resolveNames_concat hlast hp
    rw [show folder.parts ++ [x] = (folder.child x).parts from rfl] at hnone
    change fs.resolveNames linkLimit (fs.startOf folder.anchor) _ = _ at hr
    rw [hnone] at hr
    cases hr
  cases hin : fs.entryIn p x with
  | error fault => exact absurd (Or.inl hin) (hheld fault)
  | ok found =>
    cases found with
    | none => exact absurd (Or.inr ⟨rfl, hin⟩) (hheld .missing)
    | some e =>
      obtain ⟨hlost, -, -, hget⟩ := entryIn_eq_ok.mp hin
      rw [if_pos hlost, mem_names hw, ← hget]
      rfl

/-- The files found from a folder through some of the names in it: the lists of their names come in order, they are all
the files that these names lead to, and every entry on the way could be looked up. -/
structure Surveyed (fs : FileSystem) (recursive : Bool) (folder : Path) (among : String → Prop)
    (files : List Path) : Prop where
  gathered : ∃ nss : List (List String), files = nss.map folder.descend ∧ nss.Pairwise Before ∧
    ∀ ns, ns ∈ nss ↔ (∃ x ∈ ns.head?, among x) ∧ fs.HoldsFile folder ns ∧ InReach recursive ns
  told : ∀ ns, (∃ x ∈ ns.head?, among x) → fs.Visited folder ns → InReach recursive ns →
    ¬ fs.Overlong (folder.descend ns)

variable {among others : String → Prop}

lemma Surveyed.append {more : List Path} (h : fs.Surveyed recursive folder among files)
    (h' : fs.Surveyed recursive folder others more) (hbefore : ∀ x y, among x → others y → NameBefore x y) :
    fs.Surveyed recursive folder (fun x => among x ∨ others x) (files ++ more) := by
  obtain ⟨nss, rfl, hnss, hmem⟩ := h.gathered
  obtain ⟨mss, rfl, hmss, hmem'⟩ := h'.gathered
  refine ⟨⟨nss ++ mss, by simp, List.pairwise_append.mpr ⟨hnss, hmss, fun ns hns ms hms => ?_⟩, fun ns => ?_⟩, ?_⟩
  · obtain ⟨⟨x, hhead, hx⟩, -⟩ := (hmem ns).mp hns
    obtain ⟨⟨y, hhead', hy⟩, -⟩ := (hmem' ms).mp hms
    obtain ⟨ns, rfl⟩ := List.head?_eq_some_iff.mp hhead
    obtain ⟨ms, rfl⟩ := List.head?_eq_some_iff.mp hhead'
    exact .rel (hbefore x y hx hy)
  · rw [List.mem_append, hmem, hmem', ← or_and_right]
    simp only [and_or_left, exists_or]
  · rintro ns ⟨x, hhead, hx | hx⟩
    · exact h.told ns ⟨x, hhead, hx⟩
    · exact h'.told ns ⟨x, hhead, hx⟩

lemma isFolder_of_isFile (h : fs.isFile q = .ok true) : fs.isFolder q = .ok false := by
  obtain ⟨bytes, hstat⟩ := isFile_eq_true.mp h
  simp [isFolder, ask, hstat]

lemma isFile_eq_error {e : FileError} : fs.isFile q = .error e ↔ e = .onPath .nameTooLong q ∧ fs.Overlong q :=
  ask_eq_error

lemma isFolder_eq_error {e : FileError} : fs.isFolder q = .error e ↔ e = .onPath .nameTooLong q ∧ fs.Overlong q :=
  ask_eq_error

lemma not_overlong {answer : Bool} (h : fs.isFile q = .ok answer) : ¬ fs.Overlong q := by
  intro hlong
  rw [isFile_eq_error.mpr ⟨rfl, hlong⟩] at h
  cases h

/-- All files that are reached from a folder. -/
lemma Surveyed.all (h : fs.Surveyed recursive folder (fun _ => True) files) :
    (∃ nss : List (List String), files = nss.map folder.descend ∧ nss.Pairwise Before ∧
      ∀ ns, ns ∈ nss ↔ fs.HoldsFile folder ns ∧ InReach recursive ns) ∧
    ∀ ns, fs.Visited folder ns → InReach recursive ns → ¬ fs.Overlong (folder.descend ns) := by
  have hhead : ∀ ns : List String, ns ≠ [] → ∃ x ∈ ns.head?, True := fun ns hns =>
    ⟨ns.head hns, List.head?_eq_some_head hns, trivial⟩
  obtain ⟨nss, hfiles, hnss, hmem⟩ := h.gathered
  refine ⟨⟨nss, hfiles, hnss, fun ns => (hmem ns).trans ?_⟩, fun ns hvisited => ?_⟩
  · exact ⟨fun hns => hns.2, fun hns => ⟨hhead ns hns.1.named, hns⟩⟩
  · obtain ⟨us, x, -, rfl, -⟩ := hvisited.listed
    exact h.told _ (hhead _ (by simp)) hvisited

/-- The files of a folder below, under its name. -/
lemma Surveyed.below {found : List Path} (h : fs.Surveyed true (folder.child x) (fun _ => True) found)
    (hfolder : fs.isFolder folder = .ok true) (hx : IsPlain x) (hchild : fs.isFolder (folder.child x) = .ok true)
    (htold : ¬ fs.Overlong (folder.child x)) : fs.Surveyed true folder (· = x) found := by
  obtain ⟨⟨nss, rfl, hnss, hmem⟩, hall⟩ := h.all
  have hfile : fs.isFile (folder.child x) ≠ .ok true := fun hfile => by
    rw [isFolder_of_isFile hfile] at hchild
    cases hchild
  have hreach : ∀ ns, InReach true ns := fun ns hno => by cases hno
  refine ⟨⟨nss.map (x :: ·), by simp [Path.descend_cons], ?_, fun ns => ⟨?_, ?_⟩⟩, ?_⟩
  · exact List.pairwise_map.mpr (hnss.imp fun hlt => .cons hlt)
  · intro hns
    obtain ⟨ms, hms, rfl⟩ := List.mem_map.mp hns
    exact ⟨⟨x, rfl, rfl⟩, holdsFile_cons.mpr ⟨hx, hfolder, Or.inr ((hmem ms).mp hms).1⟩, hreach _⟩
  · rintro ⟨⟨y, hy, rfl⟩, hholds, -⟩
    obtain ⟨ms, rfl⟩ := List.head?_eq_some_iff.mp hy
    rcases (holdsFile_cons.mp hholds).2.2 with ⟨-, hfound⟩ | hbelow
    · exact absurd hfound hfile
    · exact List.mem_map_of_mem ((hmem ms).mpr ⟨hbelow, hreach ms⟩)
  · rintro ns ⟨y, hy, rfl⟩ hvisited -
    obtain ⟨ms, rfl⟩ := List.head?_eq_some_iff.mp hy
    rw [Path.descend_cons]
    rcases hvisited.cases_cons with rfl | ⟨-, hbelow⟩
    · simpa using htold
    · exact hall ms hbelow (hreach ms)

/-- An entry below which nothing is searched contributes itself, if it is a file. -/
lemma surveyed_entry {found : Bool} (hfolder : fs.isFolder folder = .ok true) (hx : IsPlain x)
    (hfile : fs.isFile (folder.child x) = .ok found)
    (hstop : recursive = true → fs.isFolder (folder.child x) ≠ .ok true) :
    fs.Surveyed recursive folder (· = x) (if found then [folder.child x] else []) := by
  have halone : ∀ ms, InReach recursive (x :: ms) → fs.WayOpen folder (x :: ms) → ms = [] := by
    intro ms hreach hway
    by_contra hms
    cases hrec : recursive with
    | false => exact hms (by simpa using hreach hrec)
    | true => exact hstop hrec (by simpa using (wayOpen_cons.mp hway).2 [] List.nil_prefix (Ne.symm hms))
  refine ⟨⟨if found then [[x]] else [], ?_, by cases found <;> simp, fun ns => ⟨?_, ?_⟩⟩, ?_⟩
  · cases found <;> simp [Path.descend_cons]
  · intro hns
    cases found with
    | false => simp at hns
    | true =>
      obtain rfl : ns = [x] := by simpa using hns
      exact ⟨⟨x, rfl, rfl⟩, holdsFile_cons.mpr ⟨hx, hfolder, Or.inl ⟨rfl, hfile⟩⟩, fun _ => rfl⟩
  · rintro ⟨⟨y, hy, rfl⟩, hholds, hreach⟩
    obtain ⟨ms, rfl⟩ := List.head?_eq_some_iff.mp hy
    obtain rfl := halone ms hreach hholds.way
    have hfound := hholds.file
    rw [Path.descend_cons, Path.descend_nil, hfile] at hfound
    cases hfound
    simp
  · rintro ns ⟨y, hy, rfl⟩ hvisited hreach hlong
    obtain ⟨ms, rfl⟩ := List.head?_eq_some_iff.mp hy
    obtain rfl := halone ms hreach hvisited.way
    rw [Path.descend_cons, Path.descend_nil] at hlong
    exact not_overlong hfile hlong

/-- What an entry contributes to a search. -/
lemma surveyed_candidate {descend : Path → Discovered} (hfolder : fs.isFolder folder = .ok true) (hx : IsPlain x)
    (hdescend : recursive = true → fs.isFolder (folder.child x) = .ok true → ∀ found,
      (descend (folder.child x)).result = .ok found → fs.Surveyed true (folder.child x) (fun _ => True) found)
    (h : (fs.candidate descend recursive (folder.child x)).result = .ok files) :
    fs.Surveyed recursive folder (· = x) files := by
  unfold candidate at h
  split at h
  · cases h
  · next hfile =>
    cases h
    refine surveyed_entry hfolder hx hfile fun _ hchild => ?_
    rw [isFolder_of_isFile hfile] at hchild
    cases hchild
  · next hfile =>
    split at h
    · cases h
    · next below hchild =>
      split_ifs at h with hgo
      · obtain ⟨rfl, rfl⟩ := Bool.and_eq_true_iff.mp hgo
        exact (hdescend rfl hchild files h).below hfolder hx hchild (not_overlong hfile)
      · cases h
        refine surveyed_entry hfolder hx hfile fun hrec hyes => hgo ?_
        rw [hchild] at hyes
        cases hyes
        simp [hrec]

lemma surveyed_candidates {descend : Path → Discovered} {xs : List String} (hfolder : fs.isFolder folder = .ok true)
    (hplain : ∀ x ∈ xs, IsPlain x) (hsorted : xs.Pairwise NameBefore)
    (hdescend : ∀ x ∈ xs, recursive = true → fs.isFolder (folder.child x) = .ok true → ∀ found,
      (descend (folder.child x)).result = .ok found → fs.Surveyed true (folder.child x) (fun _ => True) found)
    (h : (fs.candidates descend recursive (xs.map folder.child)).result = .ok files) :
    fs.Surveyed recursive folder (· ∈ xs) files := by
  induction xs generalizing files with
  | nil =>
    cases h
    exact ⟨⟨[], rfl, .nil, by simp⟩, by simp⟩
  | cons x xs ih =>
    rw [List.forall_mem_cons] at hplain hdescend
    rw [List.pairwise_cons] at hsorted
    rw [List.map_cons, candidates] at h
    obtain ⟨first, rest, hfirst, hrest, rfl⟩ := Discovered.andThen_eq_ok.mp h
    have happend := (surveyed_candidate hfolder hplain.1 hdescend.1 hfirst).append
      (ih hplain.2 hsorted.2 hdescend.2 hrest) fun y z hy hz => by
        rw [hy]
        exact hsorted.1 z hz
    simpa only [List.mem_cons] using happend

/-- What leads from a folder to a file or to an entry begins with a name in the folder. -/
lemma mem_list_of_head (hw : fs.WellFormed) (hlist : fs.list folder = .ok names)
    (h : fs.HoldsFile folder (x :: ns) ∨ fs.Visited folder (x :: ns)) : x ∈ names := by
  rcases h with h | h
  · obtain ⟨hx, -, ⟨-, hfile⟩ | hbelow⟩ := holdsFile_cons.mp h
    · obtain ⟨bytes, hstat⟩ := isFile_eq_true.mp hfile
      exact mem_list_of_stat hw hlist hx hstat
    · have hchild : fs.isFolder (folder.child x) = .ok true := by
        simpa using hbelow.way [] List.nil_prefix hbelow.named.symm
      exact mem_list_of_stat hw hlist hx (isFolder_eq_true.mp hchild)
  · rcases h.cases_cons with rfl | ⟨hchild, -⟩
    · obtain ⟨us, y, names', hsplit, hlist', hy⟩ := h.listed
      obtain ⟨rfl, rfl⟩ : us = [] ∧ y = x := by
        cases us with
        | nil => simpa [eq_comm] using hsplit
        | cons z us => simp at hsplit
      rw [Path.descend_nil, hlist] at hlist'
      cases hlist'
      exact hy
    · exact mem_list_of_stat hw hlist (h.plain x (List.mem_cons_self ..)) (isFolder_eq_true.mp hchild)

/-- A search in a folder that comes to its end has surveyed the folder. -/
lemma surveyed_filesIn (hw : fs.WellFormed) {levels : Nat} (hfolder : fs.isFolder folder = .ok true)
    (h : (fs.filesIn recursive levels folder).result = .ok files) :
    fs.Surveyed recursive folder (fun _ => True) files := by
  induction levels generalizing folder files with
  | zero => cases h
  | succ levels ih =>
    obtain ⟨names, hlist⟩ := list_of_folder (isFolder_eq_true.mp hfolder)
    rw [filesIn_succ hlist] at h
    have hplain : ∀ x ∈ names, IsPlain x := fun x hx => plain_of_mem_list hw hlist hx
    have hnames := surveyed_candidates hfolder hplain (ordered_list hw hlist)
      (fun x _ hrec hchild found hfound => hrec ▸ ih hchild hfound) h
    obtain ⟨nss, hfiles, hnss, hmem⟩ := hnames.gathered
    refine ⟨⟨nss, hfiles, hnss, fun ns => (hmem ns).trans (and_congr_left fun hholds => ?_)⟩, ?_⟩
    · obtain ⟨x, ms, rfl⟩ := List.exists_cons_of_ne_nil hholds.1.named
      exact ⟨fun _ => ⟨x, rfl, trivial⟩, fun _ => ⟨x, rfl, mem_list_of_head hw hlist (Or.inl hholds.1)⟩⟩
    · rintro ns ⟨x, hx, -⟩ hvisited
      obtain ⟨ms, rfl⟩ := List.head?_eq_some_iff.mp hx
      exact hnames.told _ ⟨x, rfl, mem_list_of_head hw hlist (Or.inr hvisited)⟩ hvisited

/-- A search through several entries is ended by one of them. -/
lemma candidates_eq_error {descend : Path → Discovered} {qs : List Path} {e : DiscoveryError}
    (h : (fs.candidates descend recursive qs).result = .error e) :
    ∃ q ∈ qs, (fs.candidate descend recursive q).result = .error e := by
  induction qs with
  | nil => cases h
  | cons q qs ih =>
    rw [candidates, Discovered.andThen] at h
    cases hfirst : (fs.candidate descend recursive q).result with
    | error e' =>
      rw [hfirst] at h
      cases h
      exact ⟨q, List.mem_cons_self .., hfirst⟩
    | ok found =>
      rw [hfirst] at h
      cases hrest : (fs.candidates descend recursive qs).result with
      | error e' =>
        simp only [hrest, Except.map] at h
        cases h
        obtain ⟨r, hr, her⟩ := ih hrest
        exact ⟨r, List.mem_cons_of_mem q hr, her⟩
      | ok others =>
        simp only [hrest, Except.map] at h
        cases h

lemma candidate_eq_error {descend : Path → Discovered} {e : DiscoveryError}
    (h : (fs.candidate descend recursive q).result = .error e) : fs.Overlong q ∨
      recursive = true ∧ fs.isFolder q = .ok true ∧ (descend q).result = .error e := by
  unfold candidate at h
  split at h
  · next hfile => exact Or.inl (isFile_eq_error.mp hfile).2
  · cases h
  · split at h
    · next hask => exact Or.inl (isFolder_eq_error.mp hask).2
    · next below hask =>
      split_ifs at h with hgo
      obtain ⟨rfl, hrec⟩ := Bool.and_eq_true_iff.mp hgo
      exact Or.inr ⟨hrec, hask, h⟩

/-- A search in a folder is ended only by an entry that is too long to be looked up. -/
lemma overlong_of_filesIn (hw : fs.WellFormed) {levels : Nat} {e : DiscoveryError}
    (hfolder : fs.isFolder folder = .ok true)
    (hlevels : ∀ ns, (∀ name ∈ ns, IsPlain name) → levels ≤ ns.length → fs.isFolder (folder.descend ns) ≠ .ok true)
    (h : (fs.filesIn recursive levels folder).result = .error e) :
    ∃ ns, fs.Visited folder ns ∧ InReach recursive ns ∧ fs.Overlong (folder.descend ns) := by
  induction levels generalizing folder e with
  | zero => exact absurd hfolder (by simpa using hlevels [] (by simp) (Nat.le_refl 0))
  | succ levels ih =>
    obtain ⟨names, hlist⟩ := list_of_folder (isFolder_eq_true.mp hfolder)
    rw [filesIn_succ hlist] at h
    obtain ⟨q, hq, hend⟩ := candidates_eq_error h
    obtain ⟨x, hx, rfl⟩ := List.mem_map.mp hq
    have hplain := plain_of_mem_list hw hlist hx
    rcases candidate_eq_error hend with hlong | ⟨rfl, hchild, hbelow⟩
    · exact ⟨[x], .entry hfolder hplain hlist hx, fun _ => rfl, by simpa [Path.descend_cons] using hlong⟩
    · obtain ⟨ns, hvisited, -, hlong⟩ := ih hchild (fun ns hns hlen => by
        rw [← Path.descend_cons]
        exact hlevels (x :: ns) (List.forall_mem_cons.mpr ⟨hplain, hns⟩) (by simpa using hlen)) hbelow
      exact ⟨x :: ns, hvisited.below hfolder hplain, fun hno => by (cases hno), by rwa [Path.descend_cons]⟩

/-- No folder lies as many names deep as a path may have bytes. -/
lemma isFolder_deep (h : ∀ name ∈ ns, IsPlain name) (hdeep : pathLimit ≤ ns.length) :
    fs.isFolder (root.descend ns) ≠ .ok true := by
  intro hfolder
  obtain ⟨hshort, -⟩ := stat_eq_ok.mp (isFolder_eq_true.mp hfolder)
  have hsize := (admissible_eq_ok.mp hshort).2
  have hlong := length_le_text root fun name hname => (h name hname).1
  omega

/-- What is to be found under a root: the root itself if it is a file, all files in or below it, in order, if it is a
folder, and nothing else. -/
inductive Found (fs : FileSystem) (root : Path) (recursive : Bool) : Except DiscoveryError (List Path) → Prop
  | file : fs.isFile root = .ok true → Found fs root recursive (.ok [root])
  | folder {nss : List (List String)} : fs.isFolder root = .ok true → nss.Pairwise Before →
      (∀ ns, ns ∈ nss ↔ fs.HoldsFile root ns ∧ (recursive = false → ns.length = 1)) →
      Found fs root recursive (.ok (nss.map root.descend))
  | neither : fs.isFile root ≠ .ok true → fs.isFolder root ≠ .ok true →
      Found fs root recursive (.error (.missing root))

/-- What ends a search: the root is too long to be looked up, its real path cannot be told, or the search comes to an
entry that is too long to be looked up. -/
inductive Ended (fs : FileSystem) (root : Path) (recursive : Bool) : Prop
  | overlong : fs.Overlong root → Ended fs root recursive
  | unreal {e : RealError} : fs.isFile root = .ok true ∨ fs.isFolder root = .ok true →
      fs.realPath root = .error e → Ended fs root recursive
  | within {ns : List String} : fs.isFolder root = .ok true → fs.Visited root ns →
      (recursive = false → ns.length = 1) → fs.Overlong (root.descend ns) → Ended fs root recursive

lemma not_ended (htold : ¬ fs.Overlong root)
    (hreal : fs.isFile root = .ok true ∨ fs.isFolder root = .ok true → ∃ real, fs.realPath root = .ok real)
    (hwithin : fs.isFolder root = .ok true → ∀ ns, fs.Visited root ns → InReach recursive ns →
      ¬ fs.Overlong (root.descend ns)) : ¬ fs.Ended root recursive := by
  rintro (hlong | ⟨hthere, herror⟩ | ⟨hfolder, hvisited, hreach, hlong⟩)
  · exact htold hlong
  · obtain ⟨real, hok⟩ := hreal hthere
    rw [hok] at herror
    cases herror
  · exact hwithin hfolder _ hvisited hreach hlong

/-- A search from a root whose kind is known is ended if the real path of the root cannot be told. -/
lemma discoverAs_cases {label : String} {search : Unit → Discovered} :
    (∃ e, fs.realPath root = .error e ∧ (fs.discoverAs root label search).result = .error (.real e)) ∨
      (∃ real, fs.realPath root = .ok real) ∧ (fs.discoverAs root label search).result = (search ()).result := by
  unfold discoverAs
  cases fs.realPath root with
  | error e => exact Or.inl ⟨e, rfl, rfl⟩
  | ok real => exact Or.inr ⟨⟨real, rfl⟩, rfl⟩

/-- A search is ended, or it finds what is to be found. -/
lemma ended_or_found (hw : fs.WellFormed) (root : Path) (recursive : Bool) :
    fs.Ended root recursive ∧ (∃ e, (fs.discover root recursive).result = .error e ∧ e ≠ .missing root) ∨
      ¬ fs.Ended root recursive ∧ fs.Found root recursive (fs.discover root recursive).result := by
  cases hfile : fs.isFile root with
  | error e =>
    have hresult : (fs.discover root recursive).result = .error (.file e) := by simp [discover, hfile]
    exact Or.inl ⟨.overlong (isFile_eq_error.mp hfile).2, .file e, hresult, by simp⟩
  | ok answer =>
    have htold := not_overlong hfile
    cases answer with
    | true =>
      have hnone := isFolder_of_isFile hfile
      obtain ⟨bytes, hstat⟩ := isFile_eq_true.mp hfile
      rw [discover_of_file hstat]
      rcases discoverAs_cases with ⟨e, hreal, hresult⟩ | ⟨hreal, hresult⟩
      · exact Or.inl ⟨.unreal (Or.inl hfile) hreal, .real e, hresult, by simp⟩
      · rw [hresult]
        exact Or.inr ⟨not_ended htold (fun _ => hreal) (by simp [hnone]), .file hfile⟩
    | false =>
      cases hfolder : fs.isFolder root with
      | error e => exact absurd (isFolder_eq_error.mp hfolder).2 htold
      | ok answer =>
        cases answer with
        | true =>
          rw [discover_of_folder (isFolder_eq_true.mp hfolder)]
          rcases discoverAs_cases with ⟨e, hreal, hresult⟩ | ⟨hreal, hresult⟩
          · exact Or.inl ⟨.unreal (Or.inr hfolder) hreal, .real e, hresult, by simp⟩
          · rw [hresult]
            cases hfound : (fs.filesIn recursive pathLimit root).result with
            | error e =>
              obtain ⟨ns, hvisited, hreach, hlong⟩ := overlong_of_filesIn hw hfolder (fun ns => isFolder_deep) hfound
              obtain ⟨fault, rfl, -⟩ := faulty_filesIn (isFolder_eq_true.mp hfolder) hfound
              exact Or.inl ⟨.within hfolder hvisited hreach hlong, .file fault, rfl, by simp⟩
            | ok files =>
              obtain ⟨⟨nss, rfl, hnss, hmem⟩, hall⟩ := (surveyed_filesIn hw hfolder hfound).all
              exact Or.inr ⟨not_ended htold (fun _ => hreal) fun _ => hall, .folder hfolder hnss hmem⟩
        | false =>
          have hresult : (fs.discover root recursive).result = .error (.missing root) := by
            simp [discover, hfile, hfolder]
          rw [hresult]
          exact Or.inr ⟨not_ended htold (by simp [hfile, hfolder]) (by simp [hfolder]),
            .neither (by simp [hfile]) (by simp [hfolder])⟩

/-- A search that does not go into folders is ended only where one that does is ended. -/
lemma Ended.mono (h : fs.Ended root false) : fs.Ended root true := by
  rcases h with hlong | ⟨hthere, hreal⟩ | ⟨hfolder, hvisited, -, hlong⟩
  · exact .overlong hlong
  · exact .unreal hthere hreal
  · exact .within hfolder hvisited (fun hno => by cases hno) hlong

/-- Lists of lists of names in order are the same if they have the same members. -/
lemma eq_of_pairwise_before {nss mss : List (List String)} (hnss : nss.Pairwise Before) (hmss : mss.Pairwise Before)
    (h : ∀ ns, ns ∈ nss ↔ ns ∈ mss) : nss = mss := by
  have hchar : Std.Asymm fun c d : Char => c.toNat < d.toNat := ⟨fun c d hcd hdc => Nat.lt_asymm hcd hdc⟩
  have hname : Std.Asymm NameBefore :=
    ⟨fun a b => (List.Lex.asymm fun c d : Char => c.toNat < d.toNat).asymm a.toList b.toList⟩
  have hbefore : Std.Asymm Before := List.Lex.asymm NameBefore
  have hirrefl : Std.Irrefl Before := hbefore.irrefl
  have hantisymm : Std.Antisymm Before := hbefore.antisymm
  exact hnss.eq_of_mem_iff hmss h

/-- Without going into folders a search finds, of the files it would find otherwise, those with one more name. -/
lemma discover_flat (hw : fs.WellFormed) (hfolder : fs.isFolder root = .ok true)
    (h : (fs.discover root true).result = .ok files) : (fs.discover root false).result =
      .ok (files.filter fun f => f.parts.length = root.parts.length + 1) := by
  have hfile : fs.isFile root ≠ .ok true := fun hfile => by
    rw [isFolder_of_isFile hfile] at hfolder
    cases hfolder
  rcases ended_or_found hw root true with ⟨-, e, herror, -⟩ | ⟨hgoes, hfound⟩
  · rw [h] at herror
    cases herror
  · rcases ended_or_found hw root false with ⟨hended, -⟩ | ⟨-, hfound'⟩
    · exact absurd hended.mono hgoes
    · rw [h] at hfound
      cases hfound with
      | file hroot => exact absurd hroot hfile
      | @folder nss _ hnss hmem =>
        generalize (fs.discover root false).result = flat at hfound'
        cases hfound' with
        | file hroot => exact absurd hroot hfile
        | neither _ hnone => exact absurd hfolder hnone
        | @folder mss _ hmss hmem' =>
          have hsame : mss = nss.filter fun ns => ns.length = 1 := by
            refine eq_of_pairwise_before hmss (hnss.filter _) fun ns => ?_
            rw [hmem', List.mem_filter, hmem]
            simp
          have hlength : ((fun f : Path => decide (f.parts.length = root.parts.length + 1)) ∘ root.descend) =
              fun ns => decide (ns.length = 1) := by
            funext ns
            simp [Path.descend]
          rw [hsame, List.filter_map, hlength]

/-- A search is ended only in the three ways, and otherwise finds what is to be found. -/
theorem discover_exact (hw : fs.WellFormed) (root : Path) :
    (∀ recursive, (fs.Ended root recursive → ∃ e, (fs.discover root recursive).result = .error e ∧ e ≠ .missing root) ∧
      (¬ fs.Ended root recursive → fs.Found root recursive (fs.discover root recursive).result)) ∧
    ∀ files, fs.isFolder root = .ok true → (fs.discover root true).result = .ok files →
      (fs.discover root false).result = .ok (files.filter fun f => f.parts.length = root.parts.length + 1) := by
  refine ⟨fun recursive => ?_, fun files hfolder => discover_flat hw hfolder⟩
  rcases ended_or_found hw root recursive with ⟨hended, herror⟩ | ⟨hgoes, hfound⟩
  · exact ⟨fun _ => herror, fun hnot => absurd hended hnot⟩
  · exact ⟨fun hyes => absurd hyes hgoes, fun _ => hfound⟩

/-- A file, a folder with a file, a link to this folder and a link to itself. -/
def linkedFolder : FileSystem where
  entries := [(["p"], .folder), (["p", "a"], .folder), (["p", "a", "x"], .file []), (["p", "b"], .link "a"),
    (["p", "c"], .file []), (["p", "self"], .link "self")]
  here := []

lemma linkedFolder_filesIn (levels : Nat) {q : Path} (hshort : admissible q = .ok ())
    (hplace : linkedFolder.resolveNames linkLimit (linkedFolder.startOf q.anchor) q.parts = .ok ⟨["p", "a"], 0⟩)
    (hfile : linkedFolder.isFile (q.child "x") = .ok true) :
    (linkedFolder.filesIn true (levels + 1) q).result = .ok [q.child "x"] := by
  have hlist : linkedFolder.list q = .ok ["x"] :=
    list_eq_ok.mpr ⟨hshort, ⟨["p", "a"], 0⟩, hplace, by decide +kernel, by cbv⟩
  rw [filesIn_succ hlist]
  exact candidates_of_file hfile rfl

lemma linkedFolder_found : (linkedFolder.discover (.ofString "p") true).result =
    .ok [.ofString "p/a/x", .ofString "p/b/x", .ofString "p/c"] := by
  have hlist : linkedFolder.list (.ofString "p") = .ok ["a", "b", "c", "self"] :=
    list_eq_ok.mpr ⟨by decide +kernel, ⟨["p"], 0⟩, by decide +kernel, by decide +kernel, by cbv⟩
  have hself : linkedFolder.isFile (.ofString "p/self") = .ok false ∧
      linkedFolder.isFolder (.ofString "p/self") = .ok false := by decide +kernel
  have ha := linkedFolder_filesIn 4094 (q := .ofString "p/a") (by decide +kernel) (by decide +kernel)
    (by decide +kernel)
  have hb := linkedFolder_filesIn 4094 (q := .ofString "p/b") (by decide +kernel) (by decide +kernel)
    (by decide +kernel)
  rw [discover_of_folder (by decide +kernel), discoverAs_eq_ok]
  refine ⟨⟨.ofString "/p", by decide +kernel⟩, ?_⟩
  rw [show pathLimit = 4094 + 1 + 1 from rfl, filesIn_succ hlist]
  refine candidates_of_folder (by decide +kernel) ha (candidates_of_folder (by decide +kernel) hb
    (candidates_of_file (by decide +kernel) ?_))
  change (linkedFolder.candidates _ true [.ofString "p/self"]).result = _
  simp [candidates, candidate, hself, Discovered.andThen, Except.map]

theorem linkedFolder_exact : linkedFolder.WellFormed ∧
    linkedFolder.Found (.ofString "p") true (.ok [.ofString "p/a/x", .ofString "p/b/x", .ofString "p/c"]) ∧
      (linkedFolder.discover (.ofString "p") false).result = .ok [.ofString "p/c"] := by
  have hw : linkedFolder.WellFormed := by decide +kernel
  obtain ⟨hsearch, hflat⟩ := discover_exact hw (.ofString "p")
  have hgoes : ¬ linkedFolder.Ended (.ofString "p") true := by
    intro hended
    obtain ⟨e, herror, -⟩ := (hsearch true).1 hended
    rw [linkedFolder_found] at herror
    cases herror
  refine ⟨hw, ?_, ?_⟩
  · rw [← linkedFolder_found]
    exact (hsearch true).2 hgoes
  · rw [hflat _ (by decide +kernel) linkedFolder_found]
    decide +kernel

/-- A name can be too long to be looked up even where nothing has it. -/
lemma overlong_of_name (hlost : fs.lost = 0) (hhere : fs.get? fs.here = some .folder) (hx : IsPlain x)
    (hnull : '\x00' ∉ x.toList) (hlong : nameLimit < x.utf8ByteSize) (hshort : x.utf8ByteSize < pathLimit) :
    fs.Overlong ⟨.here, [x]⟩ := by
  have htext : Path.text ⟨.here, [x]⟩ = x := by
    simp [Path.text, Anchor.text, String.intercalate_singleton]
  have hadmissible : admissible ⟨.here, [x]⟩ = .ok () := by
    rw [admissible_eq_ok, htext]
    exact ⟨hnull, hshort⟩
  have hdots : ¬ (x = "" || x = "." || x = "..") = true := by simp [hx.1, hx.2.1, hx.2.2]
  have hresolve : fs.resolveNames linkLimit (fs.startOf .here) [x] = .error .nameTooLong := by
    rw [show linkLimit = 39 + 1 from rfl, resolveNames, walk_cons, if_neg hdots]
    simp [entryIn, startOf, hlost, hhere, hlong]
  simp [Overlong, stat, locate, hadmissible, hresolve, bind, Except.bind, blame, Except.mapError]

/-- A root with a name that is too long is neither a file nor a folder, and yet it is not told to be missing. -/
theorem overlongRoot_not_missing :
    let root : Path := ⟨.here, [String.ofList (List.replicate 256 'n')]⟩
    linkedFolder.WellFormed ∧ linkedFolder.isFile root ≠ .ok true ∧ linkedFolder.isFolder root ≠ .ok true ∧
      ∀ recursive, (linkedFolder.discover root recursive).result ≠ .error (.missing root) := by
  have hw : linkedFolder.WellFormed := by decide +kernel
  have hnull : '\x00' ∉ (String.ofList (List.replicate 256 'n')).toList := by
    rw [String.toList_ofList]
    exact fun hmem => absurd (List.eq_of_mem_replicate hmem) (by decide)
  generalize hname : String.ofList (List.replicate 256 'n') = name at hnull
  have hlong : linkedFolder.Overlong ⟨.here, [name]⟩ :=
    overlong_of_name rfl rfl (by subst hname; decide +kernel) hnull (by subst hname; decide +kernel)
      (by subst hname; decide +kernel)
  refine ⟨hw, fun hfile => not_overlong hfile hlong, fun hfolder => ?_, fun recursive hmissing => ?_⟩
  · rw [isFolder_eq_error.mpr ⟨rfl, hlong⟩] at hfolder
    cases hfolder
  · rcases ended_or_found hw ⟨.here, [name]⟩ recursive with ⟨-, e, herror, hne⟩ | ⟨hgoes, -⟩
    · rw [herror] at hmissing
      cases hmissing
      exact hne rfl
    · exact hgoes (.overlong hlong)

end FileSystem

end Stubsmith.Files
