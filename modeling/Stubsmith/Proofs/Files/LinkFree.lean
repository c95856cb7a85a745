import Mathlib.Data.List.Induction
import Mathlib.Data.List.Pairwise
import Mathlib.Data.List.Sort
import Mathlib.Logic.Function.Iterate
import Stubsmith.Files.Real
import Stubsmith.Proofs.Files.Extension

/-!
# File systems without links

In a well-formed file system every entry has a name of its own and stands in a folder, and the working
folder is a folder or was one. Without links, the place that a path leads to depends on the path alone;
the entries on the way decide whether it can be reached. A way is open if folders stand all along it, it
has a gap if a folder is missing, and it is stopped if a file stands on it, whichever comes first.
-/
namespace Stubsmith.Files

/-- A name that an entry can have. -/
def IsPlain (name : String) : Prop := name ≠ "" ∧ name ≠ "." ∧ name ≠ ".."

instance (name : String) : Decidable (IsPlain name) := inferInstanceAs (Decidable (_ ∧ _))

/-- The names of a path that was read from a text. -/
def Path.Proper (p : Path) : Prop := ∀ name ∈ p.parts, name ≠ "" ∧ name ≠ "."

lemma Path.proper_ofString (s : String) : (Path.ofString s).Proper := by
  intro name hname
  have hisName : Path.isName name = true := (List.mem_filter.mp hname).2
  simpa [Path.isName] using hisName

/-- Where a link leads. -/
def Entry.target? : Entry → Option String
  | folder => none
  | file _ => none
  | link target => some target
  | device => none

namespace FileSystem

/-- Each location has one entry, which stands in a folder under a plain name. The working folder is there,
apart from the names that have been removed. -/
structure WellFormed (fs : FileSystem) : Prop where
  distinct : (fs.entries.map Prod.fst).Nodup
  rooted : ∀ a ∈ fs.entries, a.1 ≠ [] ∧ fs.get? a.1.dropLast = some .folder
  plain : ∀ a ∈ fs.entries, ∀ name ∈ a.1.getLast?, IsPlain name
  standing : fs.lost ≤ fs.here.length ∧ fs.get? (fs.here.take (fs.here.length - fs.lost)) = some .folder

/-- There are no links. -/
def LinkFree (fs : FileSystem) : Prop := ∀ a ∈ fs.entries, ∀ target, a.2 ≠ .link target

instance (fs : FileSystem) : Decidable fs.WellFormed :=
  decidable_of_iff ((fs.entries.map Prod.fst).Nodup ∧
    (∀ a ∈ fs.entries, a.1 ≠ [] ∧ fs.get? a.1.dropLast = some .folder) ∧
    (∀ a ∈ fs.entries, ∀ name ∈ a.1.getLast?, IsPlain name) ∧
    fs.lost ≤ fs.here.length ∧ fs.get? (fs.here.take (fs.here.length - fs.lost)) = some .folder)
    ⟨fun ⟨hdistinct, hrooted, hplain, hstanding⟩ => ⟨hdistinct, hrooted, hplain, hstanding⟩,
      fun h => ⟨h.distinct, h.rooted, h.plain, h.standing⟩⟩

instance (fs : FileSystem) : Decidable fs.LinkFree :=
  decidable_of_iff (∀ a ∈ fs.entries, a.2.target? = none) <| by
    refine forall₂_congr fun a _ => ?_
    cases a.2 <;> simp [Entry.target?]

variable {fs : FileSystem} {loc : Location} {name : String} {e : Entry} {p : Place} {q : Path}

lemma mem_entries (hloc : loc ≠ []) (h : fs.get? loc = some e) : (loc, e) ∈ fs.entries := by
  rw [get?, if_neg hloc, Option.map_eq_some_iff] at h
  obtain ⟨⟨l, f⟩, hfind, rfl⟩ := h
  have hl : l = loc := by simpa using List.find?_some hfind
  rw [← hl]
  exact List.mem_of_find?_eq_some hfind

lemma LinkFree.ne_link (h : fs.LinkFree) (target : String) : fs.get? loc ≠ some (.link target) := by
  intro hget
  by_cases hloc : loc = []
  · simp [get?, hloc] at hget
  · exact h _ (mem_entries hloc hget) target rfl

namespace WellFormed

lemma folder_of_child (h : fs.WellFormed) (he : fs.get? (loc ++ [name]) = some e) :
    fs.get? loc = some .folder := by
  have hmem := mem_entries (by simp) he
  simpa using (h.rooted _ hmem).2

lemma plain_of_child (h : fs.WellFormed) (he : fs.get? (loc ++ [name]) = some e) : IsPlain name := by
  have hmem := mem_entries (by simp) he
  exact h.plain _ hmem name (by simp)

lemma folder_dropLast (h : fs.WellFormed) (he : fs.get? loc = some .folder) :
    fs.get? loc.dropLast = some .folder := by
  rcases List.eq_nil_or_concat loc with rfl | ⟨l, name, rfl⟩
  · exact he
  · rw [List.concat_eq_append] at he
    simpa using h.folder_of_child he

/-- Nothing stands below a location that is no folder. -/
lemma vacant_below (h : fs.WellFormed) (hloc : fs.get? loc ≠ some .folder) (name : String)
    (rest : List String) : fs.get? (loc ++ name :: rest) = none := by
  induction rest using List.reverseRecOn with
  | nil =>
    cases he : fs.get? (loc ++ [name]) with
    | none => rfl
    | some e => exact absurd (h.folder_of_child he) hloc
  | append_singleton rest last ih =>
    cases he : fs.get? (loc ++ name :: (rest ++ [last])) with
    | none => rfl
    | some e =>
      have hfolder : fs.get? (loc ++ name :: rest) = some .folder := by
        rw [← List.cons_append, ← List.append_assoc] at he
        exact h.folder_of_child he
      rw [ih] at hfolder
      cases hfolder

end WellFormed

/-- A file or a folder may be put where no folder stands, under a plain name in a folder. -/
lemma WellFormed.set (h : fs.WellFormed) (hfolder : fs.get? loc = some .folder) (hname : IsPlain name)
    (hno : fs.get? (loc ++ [name]) ≠ some .folder) (e : Entry) :
    (fs.set (loc ++ [name]) e).WellFormed := by
  have hget : ∀ l, l ≠ loc ++ [name] → (fs.set (loc ++ [name]) e).get? l = fs.get? l := fun l hl => by
    rw [get?_set (by simp), if_neg hl]
  have hself : loc ≠ loc ++ [name] := by simp
  refine ⟨?_, ?_, ?_, h.standing.1, ?_⟩
  · have hsub : ((fs.entries.filter (·.1 ≠ loc ++ [name])).map Prod.fst).Nodup :=
      h.distinct.sublist (List.filter_sublist.map Prod.fst)
    refine List.nodup_cons.mpr ⟨?_, hsub⟩
    simp
  · intro a ha
    rcases List.mem_cons.mp ha with rfl | ha
    · simpa [hget loc hself] using hfolder
    · obtain ⟨ha, -⟩ := List.mem_filter.mp ha
      obtain ⟨hne, hparent⟩ := h.rooted a ha
      refine ⟨hne, ?_⟩
      rw [hget _ fun heq => hno (heq ▸ hparent)]
      exact hparent
  · intro a ha
    rcases List.mem_cons.mp ha with rfl | ha
    · simpa using hname
    · exact h.plain a (List.mem_filter.mp ha).1
  · have hstanding := h.standing.2
    exact (hget _ fun heq => hno (heq ▸ hstanding)).trans hstanding

lemma LinkFree.set (h : fs.LinkFree) (he : ∀ target, e ≠ .link target) : (fs.set loc e).LinkFree := by
  intro a ha
  rcases List.mem_cons.mp ha with rfl | ha
  · exact he
  · exact h a (List.mem_filter.mp ha).1

/-- The place is a folder, and so are all places above it. -/
def Firm (fs : FileSystem) (p : Place) : Prop := ∀ k, fs.entryAt? (Place.up^[k] p) = some .folder

lemma Firm.folder (h : fs.Firm p) : fs.entryAt? p = some .folder := h 0

lemma Firm.up (h : fs.Firm p) : fs.Firm p.up := fun k => h (k + 1)

lemma Firm.get? (h : fs.Firm p) (hl : p.lost = 0) : fs.get? p.location = some .folder := by
  have hfolder := h.folder
  rwa [entryAt?, if_pos hl] at hfolder

lemma Firm.child (h : fs.Firm p) (hl : p.lost = 0) (he : fs.get? (p.location ++ [name]) = some .folder) :
    fs.Firm ⟨p.location ++ [name], 0⟩ := by
  intro k
  cases k with
  | zero => simpa [entryAt?] using he
  | succ k =>
    have hup : Place.up ⟨p.location ++ [name], 0⟩ = p := by
      obtain ⟨location, lost⟩ := p
      simp only at hl
      simp [Place.up, hl]
    rw [Function.iterate_succ_apply, hup]
    exact h k

lemma WellFormed.firm_of_folder (h : fs.WellFormed) (he : fs.get? loc = some .folder) : fs.Firm ⟨loc, 0⟩ := by
  intro k
  induction k generalizing loc with
  | zero => simpa [entryAt?] using he
  | succ k ih =>
    rw [Function.iterate_succ_apply]
    exact ih (h.folder_dropLast he)

/-- A folder of which some names were removed. -/
lemma WellFormed.firm_of_lost (h : fs.WellFormed) {lost : Nat} (hle : lost ≤ loc.length)
    (he : fs.get? (loc.take (loc.length - lost)) = some .folder) : fs.Firm ⟨loc, lost⟩ := by
  induction lost generalizing loc with
  | zero =>
    rw [Nat.sub_zero, List.take_length] at he
    exact h.firm_of_folder he
  | succ lost ih =>
    intro k
    cases k with
    | zero => simp [entryAt?]
    | succ k =>
      rw [Function.iterate_succ_apply]
      refine @ih loc.dropLast ?_ ?_ k
      · rw [List.length_dropLast]
        omega
      · rw [List.length_dropLast, List.dropLast_eq_take, List.take_take]
        rwa [show min (loc.length - 1 - lost) (loc.length - 1) = loc.length - (lost + 1) by omega]

lemma WellFormed.firm_startOf (h : fs.WellFormed) (anchor : Anchor) : fs.Firm (fs.startOf anchor) := by
  cases anchor with
  | here => exact h.firm_of_lost h.standing.1 h.standing.2
  | root => exact h.firm_of_folder rfl
  | twinRoot => exact h.firm_of_folder rfl

end FileSystem

/-- The place that some names lead to, if no link stands on the way. -/
def Place.along (p : Place) (names : List String) : Place :=
  names.foldl (fun p name => if name = ".." then p.up else ⟨p.location ++ [name], 0⟩) p

@[simp] lemma Place.along_nil (p : Place) : p.along [] = p := rfl

lemma Place.along_append (p : Place) (xs ys : List String) :
    p.along (xs ++ ys) = (p.along xs).along ys := List.foldl_append

/-- What is found on the way along some names. -/
inductive Way
  /-- Folders stand all along the way. -/
  | clear
  /-- A folder is missing. -/
  | gap
  /-- A file stands on the way. -/
  | stopped
  deriving DecidableEq, Repr

namespace FileSystem

variable {fs : FileSystem} {loc : Location} {name : String} {p : Place} {q : Path} {xs ys : List String}

/-- The first thing on the way that is no folder decides. -/
def way (fs : FileSystem) : Place → List String → Way
  | _, [] => .clear
  | p, name :: rest =>
    if name = ".." then fs.way p.up rest
    else if p.lost ≠ 0 then .gap
    else match fs.get? (p.location ++ [name]) with
      | some .folder => fs.way ⟨p.location ++ [name], 0⟩ rest
      | some _ => .stopped
      | none => .gap

/-- One name further, where no link is expected. -/
def step (fs : FileSystem) (p : Place) (name : String) : Except Fault Place :=
  if name = "" || name = "." || name = ".." then
    match fs.entryAt? p with
    | some .folder => .ok (if name = ".." then p.up else p)
    | some _ => .error .notFolder
    | none => .error .missing
  else
    match fs.entryIn p name with
    | .error e => .error e
    | .ok none => .error .missing
    | .ok (some _) => .ok ⟨p.location ++ [name], 0⟩

/-- Goes along the names, where no link is expected. -/
def pass (fs : FileSystem) (p : Place) (names : List String) : Except Fault Place := names.foldlM fs.step p

lemma pass_cons : fs.pass p (name :: xs) = (fs.step p name).bind fun r => fs.pass r xs := List.foldlM_cons

lemma pass_append : fs.pass p (xs ++ ys) = (fs.pass p xs).bind fun r => fs.pass r ys := List.foldlM_append

lemma LinkFree.walk_eq (h : fs.LinkFree) (follow : Place → List String → Except Fault Place) :
    fs.walk follow p xs = fs.pass p xs := by
  induction xs generalizing p with
  | nil => rfl
  | cons name xs ih =>
    rw [walk_cons, pass_cons, step]
    by_cases hdots : (name = "" || name = "." || name = "..") = true
    · rw [if_pos hdots, if_pos hdots]
      cases fs.entryAt? p with
      | none => rfl
      | some e =>
        cases e with
        | folder => exact ih
        | file bytes => rfl
        | link target => rfl
        | device => rfl
    · rw [if_neg hdots, if_neg hdots]
      cases hin : fs.entryIn p name with
      | error fault => rfl
      | ok x =>
        cases x with
        | none => rfl
        | some e =>
          cases e with
          | folder => exact ih
          | file bytes => exact ih
          | link target => exact absurd (entryIn_eq_ok.mp hin).2.2.2.symm (h.ne_link target)
          | device => exact ih

lemma LinkFree.resolveNames_eq (h : fs.LinkFree) (links : Nat) :
    fs.resolveNames links p xs = fs.pass p xs := by
  cases links with
  | zero => exact h.walk_eq _
  | succ links => exact h.walk_eq _

/-- Names that can be looked up. -/
def Fit (names : List String) : Prop :=
  ∀ name ∈ names, name ≠ "" ∧ name ≠ "." ∧ name.utf8ByteSize ≤ nameLimit

lemma Fit.left (h : Fit (xs ++ ys)) : Fit xs := fun name hname => h name (List.mem_append_left ys hname)

lemma Fit.tail (h : Fit (name :: xs)) : Fit xs := fun x hx => h x (List.mem_cons_of_mem name hx)

lemma step_up (hp : fs.entryAt? p = some .folder) : fs.step p ".." = .ok p.up := by
  simp [step, hp]

lemma step_name (hp : fs.entryAt? p = some .folder) (hname : Fit (name :: xs)) (hup : name ≠ "..") :
    fs.step p name =
      if p.lost ≠ 0 then .error .missing
      else match fs.get? (p.location ++ [name]) with
        | some _ => .ok ⟨p.location ++ [name], 0⟩
        | none => .error .missing := by
  obtain ⟨hempty, hdot, hsize⟩ := hname name (by simp)
  have hdots : ¬ (name = "" || name = "." || name = "..") = true := by simp [hempty, hdot, hup]
  rw [step, if_neg hdots]
  by_cases hlost : p.lost = 0
  · rw [entryAt?, if_pos hlost] at hp
    have hin : fs.entryIn p name = .ok (fs.get? (p.location ++ [name])) :=
      entryIn_eq_ok.mpr ⟨hlost, hp, hsize, rfl⟩
    rw [if_neg (not_not.mpr hlost), hin]
    cases fs.get? (p.location ++ [name]) with
    | none => rfl
    | some e => rfl
  · have hin : fs.entryIn p name = .error .missing := by simp [entryIn, hlost]
    rw [if_pos hlost, hin]

/-- Nothing can be reached through an entry that is no folder. -/
lemma step_of_ne_folder (he : fs.get? loc = some e) (hne : e ≠ .folder) (name : String) :
    fs.step ⟨loc, 0⟩ name = .error .notFolder := by
  unfold step
  by_cases hdots : (name = "" || name = "." || name = "..") = true
  · rw [if_pos hdots]
    simp [entryAt?, he]
  · rw [if_neg hdots]
    simp [entryIn, he]

lemma way_up : fs.way p (".." :: xs) = fs.way p.up xs := by rw [way, if_pos rfl]

lemma way_name (hup : name ≠ "..") : fs.way p (name :: xs) =
    if p.lost ≠ 0 then .gap
    else match fs.get? (p.location ++ [name]) with
      | some .folder => fs.way ⟨p.location ++ [name], 0⟩ xs
      | some _ => .stopped
      | none => .gap := by rw [way, if_neg hup]

lemma along_up : p.along (".." :: xs) = p.up.along xs := rfl

lemma along_name (hup : name ≠ "..") : p.along (name :: xs) = Place.along ⟨p.location ++ [name], 0⟩ xs := by
  simp [Place.along, hup]

lemma along_plain (hdots : ".." ∉ xs) : Place.along ⟨loc, 0⟩ xs = ⟨loc ++ xs, 0⟩ := by
  induction xs generalizing loc with
  | nil => simp
  | cons x xs ih =>
    have hup : x ≠ ".." := fun he => hdots (by simp [he])
    rw [along_name hup, ih fun hmem => hdots (by simp [hmem]), List.append_assoc]
    rfl

lemma location_along (hdots : ".." ∉ xs) : (p.along xs).location = p.location ++ xs := by
  cases xs with
  | nil => simp
  | cons x xs =>
    have hup : x ≠ ".." := fun he => hdots (by simp [he])
    rw [along_name hup, along_plain fun hmem => hdots (by simp [hmem]), List.append_assoc]
    rfl

/-- Going along names leads where the names lead. -/
lemma along_of_pass {r : Place} (hxs : ∀ x ∈ xs, x ≠ "" ∧ x ≠ ".") (hpass : fs.pass p xs = .ok r) :
    r = p.along xs := by
  induction xs generalizing p with
  | nil =>
    cases hpass
    rfl
  | cons x xs ih =>
    rw [List.forall_mem_cons] at hxs
    obtain ⟨⟨hempty, hdot⟩, hrest⟩ := hxs
    rw [pass_cons, step] at hpass
    by_cases hup : x = ".."
    · subst hup
      cases hp : fs.entryAt? p with
      | none => simp [hp, Except.bind] at hpass
      | some e =>
        cases e with
        | folder =>
          simp only [hp] at hpass
          rw [along_up]
          exact ih hrest hpass
        | file bytes => simp [hp, Except.bind] at hpass
        | link target => simp [hp, Except.bind] at hpass
        | device => simp [hp, Except.bind] at hpass
    · have hdots : ¬ (x = "" || x = "." || x = "..") = true := by simp [hempty, hdot, hup]
      rw [if_neg hdots] at hpass
      rw [along_name hup]
      cases hin : fs.entryIn p x with
      | error fault => simp [hin, Except.bind] at hpass
      | ok found =>
        cases found with
        | none => simp [hin, Except.bind] at hpass
        | some e =>
          simp only [hin] at hpass
          exact ih hrest hpass

/-- What is found on a way decides what going along it gives: its end, a missing folder, or an entry that
is no folder. -/
lemma pass_of_way (h : fs.LinkFree) (hp : fs.Firm p) (hxs : Fit xs) :
    match fs.way p xs with
    | .clear => fs.pass p xs = .ok (p.along xs) ∧ fs.Firm (p.along xs)
    | .gap => fs.pass p xs = .error .missing
    | .stopped => fs.pass p xs = .error .notFolder ∨
        ∃ l e, fs.pass p xs = .ok ⟨l, 0⟩ ∧ fs.get? l = some e ∧ e ≠ .folder := by
  induction xs generalizing p with
  | nil => exact ⟨rfl, hp⟩
  | cons name xs ih =>
    rw [pass_cons]
    by_cases hup : name = ".."
    · subst hup
      rw [way_up, step_up hp.folder, along_up]
      exact ih hp.up hxs.tail
    · rw [way_name hup, step_name hp.folder hxs hup, along_name hup]
      by_cases hlost : p.lost = 0
      · rw [if_neg (not_not.mpr hlost), if_neg (not_not.mpr hlost)]
        have hstops : ∀ e, fs.get? (p.location ++ [name]) = some e → e ≠ .folder →
            fs.pass ⟨p.location ++ [name], 0⟩ xs = .error .notFolder ∨
              ∃ l e, fs.pass ⟨p.location ++ [name], 0⟩ xs = .ok ⟨l, 0⟩ ∧ fs.get? l = some e ∧ e ≠ .folder := by
          intro e he hne
          cases xs with
          | nil => exact Or.inr ⟨_, e, rfl, he, hne⟩
          | cons x xs =>
            rw [pass_cons, step_of_ne_folder he hne]
            exact Or.inl rfl
        cases he : fs.get? (p.location ++ [name]) with
        | none => rfl
        | some e =>
          cases e with
          | folder => exact ih (hp.child hlost he) hxs.tail
          | file bytes => exact hstops _ he (by simp)
          | link target => exact absurd he (h.ne_link target)
          | device => exact hstops _ he (by simp)
      · rw [if_pos hlost, if_pos hlost]
        rfl

section Results

variable (h : fs.LinkFree) (hp : fs.Firm p) (hxs : Fit xs)
include h hp hxs

lemma pass_clear (hw : fs.way p xs = .clear) : fs.pass p xs = .ok (p.along xs) ∧ fs.Firm (p.along xs) := by
  have hpass := pass_of_way h hp hxs
  rwa [hw] at hpass

lemma pass_gap (hw : fs.way p xs = .gap) : fs.pass p xs = .error .missing := by
  have hpass := pass_of_way h hp hxs
  rwa [hw] at hpass

lemma pass_stopped (hw : fs.way p xs = .stopped) : fs.pass p xs = .error .notFolder ∨
    ∃ l e, fs.pass p xs = .ok ⟨l, 0⟩ ∧ fs.get? l = some e ∧ e ≠ .folder := by
  have hpass := pass_of_way h hp hxs
  rwa [hw] at hpass

end Results

lemma way_append : fs.way p (xs ++ ys) =
    if fs.way p xs = .clear then fs.way (p.along xs) ys else fs.way p xs := by
  induction xs generalizing p with
  | nil => rfl
  | cons name xs ih =>
    rw [List.cons_append]
    by_cases hup : name = ".."
    · subst hup
      rw [way_up, way_up, along_up]
      exact ih
    · rw [way_name hup, way_name hup, along_name hup]
      by_cases hlost : p.lost = 0
      · rw [if_neg (not_not.mpr hlost), if_neg (not_not.mpr hlost)]
        cases fs.get? (p.location ++ [name]) with
        | none => rfl
        | some e =>
          cases e with
          | folder => exact ih
          | file bytes => rfl
          | link target => rfl
          | device => rfl
      · rw [if_pos hlost, if_pos hlost]
        rfl

section Admissible

variable {a : Anchor}

lemma admissible_eq_ok : admissible q = .ok () ↔ '\x00' ∉ q.text.toList ∧ q.text.utf8ByteSize < pathLimit := by
  unfold admissible
  by_cases hnull : '\x00' ∈ q.text.toList
  · simp [hnull]
  · by_cases hlong : q.text.utf8ByteSize < pathLimit
    · simp [hnull, hlong]
    · simp [hnull, hlong]

lemma admissible_anchor : admissible ⟨a, []⟩ = .ok () := by
  cases a with
  | here => decide
  | root => decide
  | twinRoot => decide

lemma intercalate_append {x y : String} :
    String.intercalate "/" (x :: xs ++ y :: ys) =
      String.intercalate "/" (x :: xs) ++ "/" ++ String.intercalate "/" (y :: ys) := by
  induction xs generalizing x with
  | nil => rw [List.singleton_append, String.intercalate_cons_cons, String.intercalate_singleton]
  | cons z xs ih =>
    rw [List.cons_append, List.cons_append, String.intercalate_cons_cons, ← List.cons_append, ih,
      String.intercalate_cons_cons]
    simp only [String.append_assoc]

/-- The text of a path begins with that of each path that leads to it. -/
lemma text_append {x y : String} : Path.text ⟨a, x :: xs ++ y :: ys⟩ =
    Path.text ⟨a, x :: xs⟩ ++ ("/" ++ String.intercalate "/" (y :: ys)) := by
  have hshown : ∀ z zs, Path.text ⟨a, z :: zs⟩ = a.text ++ String.intercalate "/" (z :: zs) :=
    fun z zs => by simp [Path.text]
  rw [List.cons_append, hshown, ← List.cons_append, intercalate_append, hshown]
  simp only [String.append_assoc]

/-- What leads to an admissible path is admissible. -/
lemma admissible_of_append (h : admissible ⟨a, xs ++ ys⟩ = .ok ()) : admissible ⟨a, xs⟩ = .ok () := by
  cases xs with
  | nil => exact admissible_anchor
  | cons x xs =>
    cases ys with
    | nil => rwa [List.append_nil] at h
    | cons y ys =>
      rw [admissible_eq_ok] at h ⊢
      rw [text_append, String.toList_append, String.utf8ByteSize_append] at h
      refine ⟨fun hmem => h.1 (List.mem_append_left _ hmem), ?_⟩
      have hlt := h.2
      omega

/-- A null character on the way to a path is one of its own. -/
lemma null_mem_append (h : '\x00' ∈ (Path.text ⟨a, xs⟩).toList) :
    '\x00' ∈ (Path.text ⟨a, xs ++ ys⟩).toList := by
  cases xs with
  | nil => exact absurd h (admissible_eq_ok.mp admissible_anchor).1
  | cons x xs =>
    cases ys with
    | nil => rwa [List.append_nil]
    | cons y ys =>
      rw [text_append, String.toList_append]
      exact List.mem_append_left _ h

end Admissible

/-- A path that leads to an entry has the kind of that entry. -/
lemma LinkFree.stat_of_pass {q : Path} {place : Place} {e : Entry} (h : fs.LinkFree)
    (hq : admissible q = .ok ()) (hpass : fs.pass (fs.startOf q.anchor) q.parts = .ok place)
    (he : fs.entryAt? place = some e) : fs.stat q = .ok e :=
  stat_eq_ok.mpr ⟨hq, place, (h.resolveNames_eq _).trans hpass, he⟩

section Questions

variable {a : Anchor} {x : String}
variable (h : fs.LinkFree) (hw : fs.WellFormed) (hq : admissible ⟨a, xs⟩ = .ok ()) (hxs : Fit xs)
include h hw hq hxs

lemma stat_clear (hway : fs.way (fs.startOf a) xs = .clear) : fs.stat ⟨a, xs⟩ = .ok .folder := by
  obtain ⟨hpass, hfirm⟩ := pass_clear h (hw.firm_startOf a) hxs hway
  exact h.stat_of_pass hq hpass hfirm.folder

lemma stat_gap (hway : fs.way (fs.startOf a) xs = .gap) :
    fs.stat ⟨a, xs⟩ = .error (.onPath .missing ⟨a, xs⟩) := by
  have hpass := pass_gap h (hw.firm_startOf a) hxs hway
  simp [stat, locate, hq, h.resolveNames_eq, hpass, blame, bind, Except.bind, Except.mapError]

/-- Where an entry that is no folder stands on the way, the path leads to it or nowhere. -/
lemma stat_stopped (hway : fs.way (fs.startOf a) xs = .stopped) :
    fs.stat ⟨a, xs⟩ = .error (.onPath .notFolder ⟨a, xs⟩) ∨
      ∃ e, fs.stat ⟨a, xs⟩ = .ok e ∧ e ≠ .folder := by
  rcases pass_stopped h (hw.firm_startOf a) hxs hway with hpass | ⟨l, e, hpass, he, hne⟩
  · left
    simp [stat, locate, hq, h.resolveNames_eq, hpass, blame, bind, Except.bind, Except.mapError]
  · right
    exact ⟨e, h.stat_of_pass hq hpass he, hne⟩

/-- A folder stands at a path if the way to it is clear. -/
lemma isFolder_eq : fs.isFolder ⟨a, xs⟩ = .ok (decide (fs.way (fs.startOf a) xs = .clear)) := by
  unfold isFolder ask
  cases hway : fs.way (fs.startOf a) xs with
  | clear => simp [stat_clear h hw hq hxs hway]
  | gap => simp [stat_gap h hw hq hxs hway, Fault.meansAbsent]
  | stopped =>
    rcases stat_stopped h hw hq hxs hway with hstat | ⟨e, hstat, hne⟩
    · simp [hstat, Fault.meansAbsent]
    · simp [hstat]

end Questions

section Last

variable {a : Anchor} {x : String}
variable (h : fs.LinkFree) (hw : fs.WellFormed) (hq : admissible ⟨a, xs ++ [x]⟩ = .ok ())
variable (hxs : Fit (xs ++ [x]))
include h hw hq hxs

/-- The last name of a path is looked up in a folder once the way there is clear. -/
lemma vacancy_clear (hway : fs.way (fs.startOf a) xs = .clear) :
    fs.vacancy ⟨a, xs ++ [x]⟩ =
      if x = ".." then .error (.onPath .taken ⟨a, xs ++ [x]⟩)
      else if ((fs.startOf a).along xs).lost ≠ 0 then .error (.onPath .missing ⟨a, xs ++ [x]⟩)
      else match fs.get? (((fs.startOf a).along xs).location ++ [x]) with
        | some _ => .error (.onPath .taken ⟨a, xs ++ [x]⟩)
        | none => .ok (((fs.startOf a).along xs).location ++ [x]) := by
  obtain ⟨hpass, hfirm⟩ := pass_clear h (hw.firm_startOf a) hxs.left hway
  have hlast : fs.locateLast ⟨a, xs ++ [x]⟩ =
      .ok ((fs.startOf a).along xs, if x = ".." then none else some x) := by
    simp [locateLast, hq, h.resolveNames_eq, hpass, hfirm.folder, blame, bind, Except.bind, Except.mapError,
      pure, Except.pure]
  unfold vacancy
  rw [hlast]
  by_cases hup : x = ".."
  · simp [hup, bind, Except.bind]
  · by_cases hlost : ((fs.startOf a).along xs).lost = 0
    · have hin : fs.entryIn ((fs.startOf a).along xs) x =
          .ok (fs.get? (((fs.startOf a).along xs).location ++ [x])) :=
        entryIn_eq_ok.mpr ⟨hlost, hfirm.get? hlost, (hxs x (by simp)).2.2, rfl⟩
      cases hget : fs.get? (((fs.startOf a).along xs).location ++ [x]) with
      | none => simp [hup, hin, hlost, hget, bind, Except.bind]
      | some e => simp [hup, hin, hlost, hget, bind, Except.bind]
    · have hin : fs.entryIn ((fs.startOf a).along xs) x = .error .missing := by simp [entryIn, hlost]
      simp [hup, hin, hlost, bind, Except.bind]

lemma vacancy_gap (hway : fs.way (fs.startOf a) xs = .gap) :
    fs.vacancy ⟨a, xs ++ [x]⟩ = .error (.onPath .missing ⟨a, xs ++ [x]⟩) := by
  have hpass := pass_gap h (hw.firm_startOf a) hxs.left hway
  simp [vacancy, locateLast, hq, h.resolveNames_eq, hpass, blame, bind, Except.bind, Except.mapError]

lemma vacancy_stopped (hway : fs.way (fs.startOf a) xs = .stopped) :
    fs.vacancy ⟨a, xs ++ [x]⟩ = .error (.onPath .notFolder ⟨a, xs ++ [x]⟩) := by
  rcases pass_stopped h (hw.firm_startOf a) hxs.left hway with hpass | ⟨l, e, hpass, he, hne⟩
  · simp [vacancy, locateLast, hq, h.resolveNames_eq, hpass, blame, bind, Except.bind, Except.mapError]
  · simp [vacancy, locateLast, hq, h.resolveNames_eq, hpass, entryAt?, he, blame, bind, Except.bind,
      Except.mapError]

end Last

lemma LinkFree.linkAt? (h : fs.LinkFree) (q : Path) : fs.linkAt? q = none := by
  unfold FileSystem.linkAt?
  split
  · next folder name _ =>
    cases hin : fs.entryIn folder name with
    | error fault => rfl
    | ok x =>
      cases x with
      | none => rfl
      | some e =>
        cases e with
        | folder => rfl
        | file bytes => rfl
        | device => rfl
        | link target => exact absurd (entryIn_eq_ok.mp hin).2.2.2.symm (h.ne_link target)
  · rfl

/-- Without links, going along names for a real path does not change where it starts. -/
lemma LinkFree.anchor_realWalk (h : fs.LinkFree) (follow : Path → List String → LinksSeen → RealStep)
    (seen : LinksSeen) : (fs.realWalk follow q xs seen).path.anchor = q.anchor := by
  induction xs generalizing q with
  | nil => rfl
  | cons name xs ih =>
    rw [realWalk]
    split_ifs
    · exact ih
    · rw [ih]
      unfold Path.above
      split_ifs
      · rfl
      · rfl
      · rfl
    · simp only [h.linkAt?]
      exact ih

lemma entryIn_ne_tooManyLinks : fs.entryIn p name ≠ .error .tooManyLinks := by
  unfold entryIn
  by_cases hlost : p.lost = 0
  · rw [if_neg (not_not.mpr hlost)]
    cases fs.get? p.location with
    | none => simp
    | some e =>
      cases e with
      | folder => by_cases hsize : name.utf8ByteSize > nameLimit <;> simp [hsize]
      | file bytes => simp
      | link target => simp
      | device => simp
  · simp [hlost]

lemma step_ne_tooManyLinks : fs.step p name ≠ .error .tooManyLinks := by
  unfold step
  by_cases hdots : (name = "" || name = "." || name = "..") = true
  · rw [if_pos hdots]
    cases fs.entryAt? p with
    | none => simp
    | some e => cases e <;> simp
  · rw [if_neg hdots]
    cases hin : fs.entryIn p name with
    | error fault =>
      intro he
      cases he
      exact entryIn_ne_tooManyLinks hin
    | ok x => cases x <;> simp

lemma pass_ne_tooManyLinks : fs.pass p xs ≠ .error .tooManyLinks := by
  induction xs generalizing p with
  | nil => simp [pass, pure, Except.pure]
  | cons name xs ih =>
    rw [pass_cons]
    cases hstep : fs.step p name with
    | error fault =>
      intro he
      cases he
      exact step_ne_tooManyLinks hstep
    | ok r => exact ih

lemma LinkFree.stat_ne_tooManyLinks (h : fs.LinkFree) (r : Path) :
    fs.stat q ≠ .error (.onPath .tooManyLinks r) := by
  unfold stat locate admissible
  split_ifs
  · simp [bind, Except.bind]
  · simp [bind, Except.bind]
  · rw [h.resolveNames_eq]
    have hne := @pass_ne_tooManyLinks fs (fs.startOf q.anchor) q.parts
    cases hpass : fs.pass (fs.startOf q.anchor) q.parts with
    | error fault =>
      rw [hpass] at hne
      intro he
      simp only [bind, Except.bind, blame, Except.mapError, Except.error.injEq, FileError.onPath.injEq] at he
      exact hne (congrArg Except.error he.1)
    | ok place => cases hentry : fs.entryAt? place <;> simp [bind, Except.bind, blame, Except.mapError, hentry]

/-- A path has a real path unless it starts at a working folder that was removed. -/
lemma LinkFree.realPath (h : fs.LinkFree) (hq : '\x00' ∉ q.text.toList) :
    (fs.isAdrift q = true → fs.realPath q = .error .workingFolderLost) ∧
      (fs.isAdrift q = false → ∃ real, fs.realPath q = .ok real) := by
  have hanchor : ∀ depth start, (fs.realNames depth start q.parts []).path.anchor = start.anchor := by
    intro depth start
    cases depth with
    | zero => exact h.anchor_realWalk _ _
    | succ depth => exact h.anchor_realWalk _ _
  have hadrift : fs.isAdrift
      (fs.realNames fs.linkDepth ⟨if q.isAbsolute then .root else .here, []⟩ q.parts []).path =
        fs.isAdrift q := by
    obtain ⟨a, parts⟩ := q
    unfold isAdrift
    rw [hanchor]
    cases a with
    | here => rfl
    | root => rfl
    | twinRoot => rfl
  have hnull : q.text.toList.contains '\x00' = false := by simpa using hq
  unfold FileSystem.realPath
  simp only [hnull, Bool.false_eq_true, if_false, hadrift]
  constructor
  · intro hlost
    rw [if_pos hlost]
  · intro hlost
    rw [if_neg (by simp [hlost])]
    split
    · next hstat => exact absurd hstat (h.stat_ne_tooManyLinks _)
    · exact ⟨_, rfl⟩

lemma get?_of_mem (hw : fs.WellFormed) (h : (loc, e) ∈ fs.entries) : fs.get? loc = some e := by
  have hne := (hw.rooted _ h).1
  have hpair : fs.entries.Pairwise fun a b => a.1 ≠ b.1 := List.pairwise_map.mp hw.distinct
  rw [get?, if_neg hne]
  cases hfind : fs.entries.find? (·.1 = loc) with
  | none => exact absurd (List.find?_eq_none.mp hfind _ h) (by simp)
  | some b =>
    have hb : b.1 = loc := by simpa using List.find?_some hfind
    by_contra hdiff
    have hsymm : Std.Symm fun a b : Location × Entry => a.1 ≠ b.1 := ⟨fun _ _ hab => hab.symm⟩
    have hneq : b ≠ (loc, e) := by
      rintro rfl
      exact hdiff rfl
    exact hpair.forall (List.mem_of_find?_eq_some hfind) h hneq hb

lemma mem_names (hw : fs.WellFormed) : name ∈ fs.names loc ↔ (fs.get? (loc ++ [name])).isSome = true := by
  rw [names, List.mem_mergeSort, List.mem_filterMap]
  constructor
  · rintro ⟨⟨l, e⟩, hmem, hlast⟩
    obtain ⟨hmem, hin⟩ := List.mem_filter.mp hmem
    obtain ⟨hne, hparent⟩ : l ≠ [] ∧ l.dropLast = loc := by simpa using hin
    have hl : l = loc ++ [name] := by
      rw [← hparent]
      exact (List.dropLast_append_getLast? name hlast).symm
    rw [← hl, get?_of_mem hw hmem]
    rfl
  · intro h
    obtain ⟨e, he⟩ := Option.isSome_iff_exists.mp h
    refine ⟨(loc ++ [name], e), ?_, by simp⟩
    exact List.mem_filter.mpr ⟨mem_entries (by simp) he, by simp⟩

/-- The names in a folder come in order, each once. -/
lemma names_ordered (hw : fs.WellFormed) : (fs.names loc).Pairwise fun a b => a ≤ b ∧ a ≠ b := by
  have hsorted : (fs.names loc).Pairwise fun a b => decide (a ≤ b) = true :=
    List.pairwise_mergeSort (fun a b c hab hbc => by simpa using String.le_trans (by simpa using hab) (by simpa using hbc))
      (fun a b => by simpa using String.le_total a b) _
  have hnodup : (fs.names loc).Nodup := by
    rw [names, (List.mergeSort_perm _ _).nodup_iff]
    refine List.pairwise_filterMap.mpr ?_
    have hkeys : fs.entries.Pairwise fun a b => a.1 ≠ b.1 := List.pairwise_map.mp hw.distinct
    refine (hkeys.sublist List.filter_sublist).imp_of_mem fun {a b} ha hb hab x hx y hy hxy => hab ?_
    obtain ⟨-, ha⟩ := List.mem_filter.mp ha
    obtain ⟨-, hb⟩ := List.mem_filter.mp hb
    obtain ⟨-, hpa⟩ : a.1 ≠ [] ∧ a.1.dropLast = loc := by simpa using ha
    obtain ⟨-, hpb⟩ : b.1 ≠ [] ∧ b.1.dropLast = loc := by simpa using hb
    rw [← List.dropLast_append_getLast? x hx, ← List.dropLast_append_getLast? y hy, hpa, hpb, hxy]
  exact (hsorted.and hnodup).imp fun {a b} hab => ⟨by simpa using hab.1, hab.2⟩

/-- Lists in order with the same members are the same. -/
lemma eq_of_ordered {us vs : List String} (hus : us.Pairwise fun a b => a ≤ b ∧ a ≠ b)
    (hvs : vs.Pairwise fun a b => a ≤ b ∧ a ≠ b) (h : ∀ name, name ∈ us ↔ name ∈ vs) : us = vs := by
  have hirrefl : Std.Irrefl fun a b : String => a ≤ b ∧ a ≠ b := ⟨fun a ha => ha.2 rfl⟩
  have hantisymm : Std.Antisymm fun a b : String => a ≤ b ∧ a ≠ b :=
    ⟨fun a b hab hba => String.le_antisymm hab.1 hba.1⟩
  exact hus.eq_of_mem_iff hvs fun {a} => h a

end FileSystem

end Stubsmith.Files
