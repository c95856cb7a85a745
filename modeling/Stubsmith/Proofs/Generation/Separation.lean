import Stubsmith.Proofs.Files.Rediscovery
import Stubsmith.Proofs.Generation.Frame

/-!
# Stub files that do not meet

If no stub file of a run lies on the way to another, then none of them can be in the way of another:
what processing one input adds is a folder on its own way or its own stub file, and neither changes what
matters to the others. A run over such inputs is a sum. Its outcomes are those that each input would have
alone, and it leaves what each input alone would leave.
-/
namespace Stubsmith.Generation

open Files (Path Place FileSystem FileError Location Anchor Entry IsPlain Below)
open Files.FileSystem

variable {fs fs' : FileSystem} {root out input other : Path} {w : Writer} {a : Anchor}
variable {xs d d' ps : List String} {n n' : String} {inputs : List Path} {l : Location}

/-- Neither input has its stub file at or below that of the other. -/
def Apart (root out : Path) (w : Writer) (input other : Path) : Prop :=
  ∀ target target', outputPath input root out w = .ok target → outputPath other root out w = .ok target' →
    ¬ target.parts <+: target'.parts ∧ ¬ target'.parts <+: target.parts

/-- The file names of the stubs are single names, short enough to be looked up, and no stub file lies at
or below another. -/
structure Separated (root out : Path) (w : Writer) (inputs : List Path) : Prop where
  named : ∀ input ∈ inputs, ∃ name, Path.ofString (w.fileName (baseName input)) = ⟨.here, [name]⟩ ∧ name ≠ ".."
  short : ∀ input ∈ inputs, ∀ target, outputPath input root out w = .ok target →
    ∀ name ∈ target.parts, name.utf8ByteSize ≤ nameLimit
  apart : inputs.Pairwise (Apart root out w)

instance decidableForallOk {ε α : Type} {P : α → Prop} [DecidablePred P] :
    (x : Except ε α) → Decidable (∀ a, x = .ok a → P a)
  | .ok a => decidable_of_iff (P a) (by simp)
  | .error _ => isTrue (by simp)

instance (root out : Path) (w : Writer) (input other : Path) : Decidable (Apart root out w input other) :=
  decidable_of_iff (∀ target, outputPath input root out w = .ok target →
      ∀ target', outputPath other root out w = .ok target' →
        ¬ target.parts <+: target'.parts ∧ ¬ target'.parts <+: target.parts)
    ⟨fun h target target' ht ht' => h target ht target' ht', fun h target ht target' ht' => h target target' ht ht'⟩

/-- A path that is a single name, other than double dots. -/
instance (p : Path) : Decidable (∃ name, p = ⟨.here, [name]⟩ ∧ name ≠ "..") :=
  decidable_of_iff (p.anchor = .here ∧ p.parts.length = 1 ∧ ".." ∉ p.parts) <| by
    obtain ⟨a, parts⟩ := p
    constructor
    · rintro ⟨rfl, hlen, hdots⟩
      obtain ⟨name, rfl⟩ := List.length_eq_one_iff.mp hlen
      exact ⟨name, rfl, fun he => hdots (by simp [he])⟩
    · rintro ⟨name, heq, hup⟩
      cases heq
      exact ⟨rfl, rfl, by simpa using hup.symm⟩

instance (root out : Path) (w : Writer) (inputs : List Path) : Decidable (Separated root out w inputs) :=
  decidable_of_iff ((∀ input ∈ inputs, ∃ name,
      Path.ofString (w.fileName (baseName input)) = ⟨.here, [name]⟩ ∧ name ≠ "..") ∧
    (∀ input ∈ inputs, ∀ target, outputPath input root out w = .ok target →
      ∀ name ∈ target.parts, name.utf8ByteSize ≤ nameLimit) ∧ inputs.Pairwise (Apart root out w))
    ⟨fun ⟨hnamed, hshort, hapart⟩ => ⟨hnamed, hshort, hapart⟩, fun h => ⟨h.named, h.short, h.apart⟩⟩

/-- The stub file of an input goes to the folder `d` below the output root, with the name `n`. -/
structure Lodged (root out : Path) (w : Writer) (input : Path) (d : List String) (n : String) : Prop where
  target : outputPath input root out w = .ok ⟨out.anchor, out.parts ++ d ++ [n]⟩
  down : ".." ∉ d
  name : n ≠ ".."
  fit : Fit (out.parts ++ d ++ [n])

/-- The stub file lies under the output root as the input lies under its root. -/
lemma outputPath_below {names : List String} (hnames : names ≠ []) :
    outputPath ⟨root.anchor, root.parts ++ names⟩ root out w =
      .ok (Path.join ⟨out.anchor, out.parts ++ names.dropLast⟩
        (Path.ofString (w.fileName (baseName ⟨root.anchor, root.parts ++ names⟩)))) := by
  have hroot : (⟨root.anchor, root.parts ++ names⟩ : Path) ≠ root := fun h =>
    hnames (List.append_right_eq_self.mp (congrArg Path.parts h))
  have hrelative : Path.relativeTo? ⟨root.anchor, root.parts ++ names⟩ root = some ⟨.here, names⟩ := by
    simp [Path.relativeTo?, List.isPrefixOf_iff_prefix]
  simp [outputPath, hroot, hrelative, Path.join, Path.isAbsolute, Path.parent]

/-- The stub file of an input below the root goes below the output root. -/
lemma exists_lodged (hout : out.Proper) (hbelow : input = root ∨ Below root input)
    (hname : Path.ofString (w.fileName (baseName input)) = ⟨.here, [n]⟩) (hn : n ≠ "..")
    (hshort : ∀ target, outputPath input root out w = .ok target →
      ∀ name ∈ target.parts, name.utf8ByteSize ≤ nameLimit) : ∃ d, Lodged root out w input d n := by
  obtain ⟨d, hplain, htarget⟩ : ∃ d : List String, (∀ x ∈ d, IsPlain x) ∧
      outputPath input root out w = .ok ⟨out.anchor, out.parts ++ d ++ [n]⟩ := by
    rcases hbelow with rfl | ⟨names, hnames, hplain, rfl⟩
    · exact ⟨[], fun x hx => by (cases hx), by simp [outputPath, hname, Path.join, Path.isAbsolute]⟩
    · refine ⟨names.dropLast, fun x hx => hplain x (List.dropLast_subset _ hx), ?_⟩
      rw [outputPath_below hnames, hname]
      rfl
  refine ⟨d, htarget, fun hmem => (hplain _ hmem).2.2 rfl, hn, fun x hx => ?_⟩
  have hsize := hshort _ htarget x hx
  rcases List.mem_append.mp hx with hx | hx
  · rcases List.mem_append.mp hx with hx | hx
    · exact ⟨(hout x hx).1, (hout x hx).2, hsize⟩
    · exact ⟨(hplain x hx).1, (hplain x hx).2.1, hsize⟩
  · have hproper := Path.proper_ofString (w.fileName (baseName input))
    rw [hname] at hproper
    exact ⟨(hproper x hx).1, (hproper x hx).2, hsize⟩

lemma Separated.lodged (hsep : Separated root out w inputs) (hout : out.Proper) (hinput : input ∈ inputs)
    (hbelow : input = root ∨ Below root input) : ∃ d n, Lodged root out w input d n := by
  obtain ⟨name, hname, hup⟩ := hsep.named input hinput
  obtain ⟨d, hlodged⟩ := exists_lodged hout hbelow hname hup (hsep.short input hinput)
  exact ⟨d, name, hlodged⟩

lemma Apart.lodged (h : Apart root out w input other) (hinput : Lodged root out w input d n)
    (hother : Lodged root out w other d' n') : ¬ d ++ [n] <+: d' ++ [n'] ∧ ¬ d' ++ [n'] <+: d ++ [n] := by
  have hparts := h _ _ hinput.target hother.target
  simpa only [List.append_assoc, List.prefix_append_right_inj] using hparts

lemma spot_lodged (hd : ".." ∉ d) :
    spot fs a (xs ++ d) n = ((fs.startOf a).along xs).location ++ (d ++ [n]) := by
  rw [spot, Place.along_append, location_along hd, List.append_assoc]

/-- A way without double dots goes through the folders that it names. -/
lemma mem_trail_down {p : Place} (hd : ".." ∉ d) (hl : l ∈ trail p d) :
    ∃ taken, taken <+: d ∧ l = p.location ++ taken := by
  induction d generalizing p with
  | nil => cases hl
  | cons x d ih =>
    have hup : x ≠ ".." := fun he => hd (by simp [he])
    rw [trail_name hup, List.mem_cons] at hl
    rcases hl with rfl | hl
    · exact ⟨[x], by simp, rfl⟩
    · obtain ⟨taken, htaken, rfl⟩ := ih (fun hmem => hd (by simp [hmem])) hl
      exact ⟨x :: taken, List.cons_prefix_cons.mpr ⟨rfl, htaken⟩, by simp⟩

/-- A stub file that lies on the way to another, without being above it, lies on its own way. -/
lemma spot_mem_trail (hd : ".." ∉ d) (hd' : ".." ∉ d') (hapart : ¬ d ++ [n] <+: d')
    (hmem : spot fs a (xs ++ d) n ∈ trail (fs.startOf a) (xs ++ d')) :
    spot fs a (xs ++ d) n ∈ trail (fs.startOf a) (xs ++ d) := by
  rw [trail_append] at hmem ⊢
  rcases List.mem_append.mp hmem with hmem | hmem
  · exact List.mem_append_left _ hmem
  · obtain ⟨taken, htaken, heq⟩ := mem_trail_down hd' hmem
    rw [spot_lodged hd] at heq
    rw [List.append_cancel_left heq] at hapart
    exact absurd htaken hapart

/-- Nothing that is new in the second file system matters to the stub file at a path. -/
structure Harmless (fs fs' : FileSystem) (a : Anchor) (ps : List String) (n : String) : Prop where
  way : ∀ l ∈ trail (fs.startOf a) ps, fs.get? l = none → ∀ e, fs'.get? l = some e → e = .folder
  spot : spot fs a ps n ∉ trail (fs.startOf a) ps → fs.get? (spot fs a ps n) = none →
    fs'.get? (spot fs a ps n) = none

/-- What one input adds does not matter to the stub file of another that lies neither above nor below. -/
lemma harmless_of_apart (h : fs.LinkFree) (hw : fs.WellFormed) (huntouching : w.Untouching)
    (hinput : Lodged root out w input d n) (hother : Lodged root out w other d' n')
    (hapart : Apart root out w other input) :
    Harmless fs (generateFile fs root out other w).fs out.anchor (out.parts ++ d) n where
  way := by
    intro l hl hnone e he
    have habove := (hapart.lodged hother hinput).1
    rcases generateFile_new h hw hother.target hother.fit hother.name huntouching hnone he with
      ⟨hfolder, -⟩ | ⟨-, rfl, hoff⟩
    · exact hfolder
    · have hmem := spot_mem_trail hother.down hinput.down
        (fun hpre => habove (hpre.trans (List.prefix_append d [n]))) hl
      exact absurd hmem hoff
  spot := by
    intro hoff hnone
    have hbelow := (hapart.lodged hother hinput).2
    cases he : (generateFile fs root out other w).fs.get? (Generation.spot fs out.anchor (out.parts ++ d) n) with
    | none => rfl
    | some e =>
      rcases generateFile_new h hw hother.target hother.fit hother.name huntouching hnone he with
        ⟨-, hmem⟩ | ⟨-, heq, -⟩
      · have hself := spot_mem_trail hinput.down hother.down
          (fun hpre => hbelow (hpre.trans (List.prefix_append d' [n']))) hmem
        exact absurd hself hoff
      · rw [spot_lodged hinput.down, spot_lodged hother.down] at heq
        rw [List.append_cancel_left heq] at hbelow
        exact absurd (List.prefix_refl _) hbelow

/-- A file system with the entries of another and of some more. -/
structure IsSum (fs : FileSystem) (parts : List FileSystem) (sum : FileSystem) : Prop where
  here : sum.here = fs.here
  lost : sum.lost = fs.lost
  entries : ∀ l e, sum.get? l = some e ↔ fs.get? l = some e ∨ ∃ part ∈ parts, part.get? l = some e

variable {parts : List FileSystem} {sum : FileSystem}

lemma IsSum.extends (hsum : IsSum fs parts sum) : fs.Extends sum :=
  ⟨fun l e he => (hsum.entries l e).mpr (Or.inl he), hsum.here, hsum.lost⟩

/-- A sum is interchangeable with its first part if nothing in the others matters. -/
lemma IsSum.interchangeable (hsum : IsSum fs parts sum) (hparts : ∀ part ∈ parts, Harmless fs part a ps n) :
    Interchangeable fs sum a ps n where
  start := hsum.extends.startOf a
  blocked := by
    intro l hl
    unfold FileSystem.blocked
    cases hold : fs.get? l with
    | some e => rw [hsum.extends.keeps l e hold]
    | none =>
      cases hnew : sum.get? l with
      | none => rfl
      | some e =>
        rcases (hsum.entries l e).mp hnew with he | ⟨part, hpart, he⟩
        · rw [hold] at he
          cases he
        · rw [(hparts part hpart).way l hl hold e he]
  held := by
    intro hoff
    cases hold : fs.get? (spot fs a ps n) with
    | some e => rw [hsum.extends.keeps _ e hold]
    | none =>
      cases hnew : sum.get? (spot fs a ps n) with
      | none => rfl
      | some e =>
        rcases (hsum.entries _ e).mp hnew with he | ⟨part, hpart, he⟩
        · rw [hold] at he
          cases he
        · rw [(hparts part hpart).spot hoff hold] at he
          cases he

/-- The inputs that a run comes to: those up to the first that aborts it. -/
def reached (fs : FileSystem) (root out : Path) (w : Writer) : List Path → List Path
  | [] => []
  | input :: inputs =>
    match (generateFile fs root out input w).result with
    | .ok _ => input :: reached fs root out w inputs
    | .error _ => [input]

lemma reached_nil : reached fs root out w [] = [] := by rfl

lemma reached_cons : reached fs root out w (input :: inputs) =
    match (generateFile fs root out input w).result with
    | .ok _ => input :: reached fs root out w inputs
    | .error _ => [input] := by rfl

/-- What each input leaves behind alone. -/
def leftovers (fs : FileSystem) (root out : Path) (w : Writer) (inputs : List Path) : List FileSystem :=
  inputs.map fun input => (generateFile fs root out input w).fs

/-- One more input adds to a sum what it leaves behind alone. -/
lemma IsSum.step (hsum : IsSum fs parts sum) {done done' : Done Outcome}
    (hpar : Parallel fs sum a ps n done done') (hadds : sum.Extends done'.fs) :
    IsSum fs (parts ++ [done.fs]) done'.fs where
  here := hadds.here.trans hsum.here
  lost := hadds.lost.trans hsum.lost
  entries := by
    intro l e
    obtain ⟨add, -, hfiles, hfiles'⟩ := hpar.files
    constructor
    · intro he
      rw [hfiles'] at he
      cases hadd : add l with
      | some new =>
        rw [hadd, Option.some_or] at he
        refine Or.inr ⟨done.fs, by simp, ?_⟩
        rw [hfiles, hadd, Option.some_or]
        exact he
      | none =>
        rw [hadd, Option.none_or] at he
        rcases (hsum.entries l e).mp he with hold | ⟨part, hpart, he⟩
        · exact Or.inl hold
        · exact Or.inr ⟨part, List.mem_append_left _ hpart, he⟩
    · rintro (hold | ⟨part, hpart, he⟩)
      · exact hadds.keeps l e (hsum.extends.keeps l e hold)
      · rcases List.mem_append.mp hpart with hpart | hpart
        · exact hadds.keeps l e ((hsum.entries l e).mpr (Or.inr ⟨part, hpart, he⟩))
        · rw [List.mem_singleton.mp hpart, hfiles] at he
          cases hadd : add l with
          | some new =>
            rw [hadd, Option.some_or] at he
            rw [hfiles', hadd, Option.some_or]
            exact he
          | none =>
            rw [hadd, Option.none_or] at he
            exact hadds.keeps l e (hsum.extends.keeps l e he)

/-- The results that the inputs have alone, up to the first abort. -/
def verdicts (fs : FileSystem) (root out : Path) (w : Writer) (inputs : List Path) :
    Except Abort (List Outcome) :=
  inputs.mapM fun input => (generateFile fs root out input w).result

lemma verdicts_cons : verdicts fs root out w (input :: inputs) =
    (generateFile fs root out input w).result.bind fun o => (verdicts fs root out w inputs).map (o :: ·) := by
  unfold verdicts
  rw [List.mapM_cons]
  cases (generateFile fs root out input w).result with
  | error e => rfl
  | ok o =>
    cases inputs.mapM fun input => (generateFile fs root out input w).result with
    | error e => rfl
    | ok os => rfl

/-- A run whose outcomes are those that the inputs have alone, and which leaves what they and some inputs
before them leave alone. -/
structure SumRun (fs : FileSystem) (root out : Path) (w : Writer) (before inputs : List Path)
    (run : Done (List Outcome)) : Prop where
  alike : run.result.map (List.map Outcome.blurred) =
    (verdicts fs root out w inputs).map (List.map Outcome.blurred)
  exact : ".." ∉ out.parts → run.result = verdicts fs root out w inputs
  files : IsSum fs (leftovers fs root out w (before ++ reached fs root out w inputs)) run.fs
  linkFree : run.fs.LinkFree
  wellFormed : run.fs.WellFormed

section Run

variable (h : fs.LinkFree) (hw : fs.WellFormed) (huntouching : w.Untouching)
include h hw huntouching

/-- Processing inputs after some others is a sum. -/
theorem sumRun_generateEach {before : List Path} (hlinks : sum.LinkFree) (hwell : sum.WellFormed)
    (hfiles : ∀ input ∈ inputs, fs.isFile input = .ok true)
    (hlodged : ∀ input ∈ before ++ inputs, ∃ d n, Lodged root out w input d n)
    (hapart : (before ++ inputs).Pairwise (Apart root out w))
    (hsum : IsSum fs (leftovers fs root out w before) sum) :
    SumRun fs root out w before inputs (generateEach none root out w sum inputs) := by
  induction inputs generalizing before sum with
  | nil =>
    refine ⟨rfl, fun _ => rfl, ?_, hlinks, hwell⟩
    rw [reached_nil, List.append_nil]
    exact hsum
  | cons input inputs ih =>
    rw [List.forall_mem_cons] at hfiles
    obtain ⟨d, n, hinput⟩ := hlodged input (by simp)
    have hharmless : ∀ part ∈ leftovers fs root out w before,
        Harmless fs part out.anchor (out.parts ++ d) n := by
      intro part hpart
      obtain ⟨other, hother, rfl⟩ := List.mem_map.mp hpart
      obtain ⟨d', n', hlodged'⟩ := hlodged other (by simp [hother])
      exact harmless_of_apart h hw huntouching hinput hlodged'
        ((List.pairwise_append.mp hapart).2.2 other hother input (by simp))
    have hpar := generateFile_parallel h hw hinput.target hinput.fit hinput.name huntouching hlinks hwell
      (hsum.interchangeable hharmless) (servicesOf_of_extends hsum.extends hfiles.1)
    have hnext := hsum.step hpar (extends_generateFile huntouching sum root out input)
    obtain ⟨hlinks', hwell'⟩ := generateFile_keeps hlinks hwell hinput.target hinput.fit hinput.name huntouching
    have hleft : leftovers fs root out w before ++ [(generateFile fs root out input w).fs] =
        leftovers fs root out w (before ++ [input]) := by simp [leftovers]
    rw [hleft] at hnext
    have hdots : ".." ∉ out.parts → ".." ∉ out.parts ++ d := fun hnot hmem =>
      (List.mem_append.mp hmem).elim hnot hinput.down
    have halike := hpar.alike
    cases halone : (generateFile fs root out input w).result with
    | error e =>
      rw [halone] at halike
      have hresult : (generateFile sum root out input w).result = .error e := error_of_map_eq halike
      obtain ⟨hfs, herror⟩ := generateEach_of_error hresult inputs
      refine ⟨?_, fun _ => ?_, ?_, ?_, ?_⟩
      · rw [herror, verdicts_cons, halone]
        rfl
      · rw [herror, verdicts_cons, halone]
        rfl
      · rw [hfs, reached_cons, halone]
        exact hnext
      · rw [hfs]
        exact hlinks'
      · rw [hfs]
        exact hwell'
    | ok o =>
      rw [halone] at halike
      obtain ⟨o', hresult, ho'⟩ := exists_of_map_eq_ok halike
      obtain ⟨hfs, hothers⟩ := generateEach_of_ok hresult inputs
      have hmore := ih hlinks' hwell' hfiles.2 (by simpa using hlodged) (by simpa using hapart) hnext
      refine ⟨?_, fun hnot => ?_, ?_, ?_, ?_⟩
      · rw [hothers, verdicts_cons, halone]
        exact map_cons_eq ho'.symm hmore.alike
      · have hsame := hpar.exact (hdots hnot)
        rw [halone, hresult, Except.ok.injEq] at hsame
        rw [hothers, verdicts_cons, halone, hmore.exact hnot, hsame]
        rfl
      · rw [hfs, reached_cons, halone]
        simpa using hmore.files
      · rw [hfs]
        exact hmore.linkFree
      · rw [hfs]
        exact hmore.wellFormed

/-- A run over the inputs that were found is a sum. -/
theorem sumRun_of_discover {recursive : Bool} (hout : out.Proper)
    (hfound : (fs.discover root recursive).result = .ok inputs) (hsep : Separated root out w inputs) :
    SumRun fs root out w [] inputs (generateEach none root out w fs inputs) := by
  refine sumRun_generateEach h hw huntouching h hw (all_discover root inputs hfound) (fun input hinput => ?_)
    hsep.apart ⟨rfl, rfl, fun l e => by simp [leftovers]⟩
  exact hsep.lodged hout hinput (below_discover h hw root inputs hfound input hinput)

end Run

/-- What was found under a root is processed, one input after the other. -/
lemma generate_of_discover {recursive : Bool} (hfound : (fs.discover root recursive).result = .ok inputs) :
    (generate none fs root out recursive w).fs = (generateEach none root out w fs inputs).fs ∧
      (generate none fs root out recursive w).result =
        (generateEach none root out w fs inputs).result.map Report.mk := by
  unfold generate
  simp only [exists_of_discover hfound, Logging.note_none, hfound]
  cases (generateEach none root out w fs inputs).result with
  | error e => exact ⟨rfl, rfl⟩
  | ok outcomes => exact ⟨rfl, rfl⟩

end Stubsmith.Generation
