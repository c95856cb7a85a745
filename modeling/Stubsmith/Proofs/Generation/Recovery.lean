import Stubsmith.Proofs.Generation.Additions
import Stubsmith.Proofs.Generation.Independence

/-!
# A failed run can be made good

A writer that fails at some services leaves the folders on the way to their stub files and no more. A
later run with a writer that does not fail, and that writes what the first one would have written, finds
the finished stub files in their places and adds the others. In the end the files are those that the
second writer alone would have left.
-/
namespace Stubsmith.Generation

open Files (Path Place FileSystem FileError Location Anchor Entry)
open Files.FileSystem
open Text (Bytes)

variable {fs fs' sum : FileSystem} {root out input : Path} {w w₁ w₂ : Writer} {inputs : List Path}
variable {a : Anchor} {ps d : List String} {n : String} {services : List Service} {recursive : Bool}

/-- The second writer never fails, and it writes what the first one writes where that does not fail. -/
structure Retries (w₁ w₂ : Writer) : Prop where
  fileName : w₁.fileName = w₂.fileName
  steady : ∀ s base name held, (w₂.emit s base name held).failure = none
  same : ∀ s base name held, (w₁.emit s base name held).failure = none →
    (w₁.emit s base name held).appended = (w₂.emit s base name held).appended

namespace Retries

variable {base name : String} {held : Bytes} (h : Retries w₁ w₂)
include h

lemma outputPath : outputPath input root out w₁ = outputPath input root out w₂ := by
  unfold Generation.outputPath
  rw [h.fileName]

lemma emitAll_steady : (w₂.emitAll base name held services).failure = none := by
  induction services generalizing held with
  | nil => rfl
  | cons s ss ih =>
    rw [Writer.emitAll]
    simp only [h.steady]
    exact ih

lemma emitAll_same (hdone : (w₁.emitAll base name held services).failure = none) :
    (w₁.emitAll base name held services).appended = (w₂.emitAll base name held services).appended := by
  induction services generalizing held with
  | nil => rfl
  | cons s ss ih =>
    rw [Writer.emitAll] at hdone ⊢
    rw [Writer.emitAll]
    cases hfirst : (w₁.emit s base name held).failure with
    | some failure =>
      simp only [hfirst] at hdone
      cases hdone
    | none =>
      simp only [hfirst] at hdone
      simp only [h.steady, h.same s base name held hfirst] at hdone ⊢
      rw [ih hdone]

end Retries

/-- If no stub file is opened, the writer does not matter, and only folders are new. -/
lemma writeServices_unopened {target : Path} (hopen : ∀ loc, (openOutput fs target).1 ≠ .ok (some loc)) :
    writeServices fs input target w₁ services = writeServices fs input target w₂ services ∧
      fs.AddsFolders (writeServices fs input target w₁ services).fs := by
  unfold writeServices
  cases fs.exists? target with
  | error e => exact ⟨rfl, .refl fs⟩
  | ok found =>
    cases found with
    | true => exact ⟨rfl, .refl fs⟩
    | false =>
      have hadds := @addsFolders_openOutput fs (openOutput fs target).2 target (openOutput fs target).1 rfl hopen
      rcases hmade : openOutput fs target with ⟨result, made⟩
      rw [hmade] at hopen hadds
      cases result with
      | error e => cases e <;> exact ⟨rfl, hadds⟩
      | ok opened =>
        cases opened with
        | none => exact ⟨rfl, hadds⟩
        | some loc => exact absurd rfl (hopen loc)

/-- A stub file is opened on vacant ground only. -/
lemma vacant_of_opened (h : fs.LinkFree) (hw : fs.WellFormed) (hps : Fit (ps ++ [n])) (hn : n ≠ "..")
    {loc : Location} (hopen : (openOutput fs ⟨a, ps ++ [n]⟩).1 = .ok (some loc)) :
    admissible ⟨a, ps ++ [n]⟩ = .ok () ∧ ground fs a ps n = .vacant := by
  obtain ⟨made, -, hvacancy, -⟩ := @openOutput_eq_some fs (openOutput fs ⟨a, ps ++ [n]⟩).2 _ loc
    (Prod.ext hopen rfl)
  obtain ⟨folder, name, hlast, -⟩ := vacancy_eq_ok hvacancy
  have hq := (locateLast_eq_named.mp hlast).1
  refine ⟨hq, ?_⟩
  cases hground : ground fs a ps n with
  | vacant => rfl
  | held =>
    rw [openOutput_held h hw hq hps hn hground] at hopen
    cases hopen
  | barred =>
    obtain ⟨fault, q, hbarred, -⟩ := openOutput_barred h hw hq hps hn hground
    rw [hbarred] at hopen
    cases hopen

/-- What becomes of an input with two writers of which the first may fail: nothing is written by either,
the first fails and the second writes a stub file, or both write the same. -/
lemma retry_cases (h : fs.LinkFree) (hw : fs.WellFormed) (hw₁ : w₁.Untouching) (hw₂ : w₂.Untouching)
    (hretries : Retries w₁ w₂) (hlodged : Lodged root out w₂ input d n)
    (hlost : (fs.startOf out.anchor).lost = 0) :
    (generateFile fs root out input w₁ = generateFile fs root out input w₂ ∧
      fs.AddsFolders (generateFile fs root out input w₁).fs) ∨
    (admissible ⟨out.anchor, out.parts ++ d ++ [n]⟩ = .ok () ∧
      ground fs out.anchor (out.parts ++ d) n = .vacant ∧
      (∃ o, (generateFile fs root out input w₁).result = .ok o) ∧
      (∃ o, (generateFile fs root out input w₂).result = .ok o) ∧
      ∃ bytes, (generateFile fs root out input w₂).fs =
          (fs.pave (fs.startOf out.anchor) (out.parts ++ d)).2.set
            (spot fs out.anchor (out.parts ++ d) n) (.file bytes) ∧
        ((generateFile fs root out input w₁).fs = (fs.pave (fs.startOf out.anchor) (out.parts ++ d)).2 ∨
          (generateFile fs root out input w₁).fs = (generateFile fs root out input w₂).fs)) := by
  have htarget₁ := hretries.outputPath.trans hlodged.target
  unfold generateFile
  rcases servicesOf fs input with ⟨result, log⟩
  cases result with
  | error e =>
    cases e with
    | parse e => exact Or.inl ⟨rfl, .refl fs⟩
    | nullCharacter => exact Or.inl ⟨rfl, .refl fs⟩
    | invalid issues => exact Or.inl ⟨rfl, .refl fs⟩
  | ok services =>
    cases services with
    | nil => exact Or.inl ⟨rfl, .refl fs⟩
    | cons s ss =>
      simp only [hlodged.target, htarget₁]
      by_cases hopen : ∃ loc, (openOutput fs ⟨out.anchor, out.parts ++ d ++ [n]⟩).1 = .ok (some loc)
      · right
        obtain ⟨loc, hopen⟩ := hopen
        obtain ⟨hq, hground⟩ := vacant_of_opened h hw hlodged.fit hlodged.name hopen
        obtain ⟨hfs₂, hresult₂⟩ := writeServices_finished h hw hq hlodged.fit hlodged.name hw₂ hground
          hretries.emitAll_steady
        rw [if_neg (not_not.mpr hlost)] at hresult₂
        cases hfailure : (w₁.emitAll (baseName input) (w₁.fileName (baseName input)) [] (s :: ss)).failure with
        | some failure =>
          obtain ⟨hfs₁, hresult₁⟩ := writeServices_failed h hw hq hlodged.fit hlodged.name hw₁ hground hfailure
          exact ⟨hq, hground, ⟨_, hresult₁⟩, ⟨_, hresult₂⟩, _, hfs₂, Or.inl hfs₁⟩
        | none =>
          obtain ⟨hfs₁, hresult₁⟩ := writeServices_finished h hw hq hlodged.fit hlodged.name hw₁ hground hfailure
          rw [if_neg (not_not.mpr hlost)] at hresult₁
          rw [hretries.emitAll_same hfailure, hretries.fileName] at hfs₁
          exact ⟨hq, hground, ⟨_, hresult₁⟩, ⟨_, hresult₂⟩, _, hfs₂, Or.inr (hfs₁.trans hfs₂.symm)⟩
      · left
        obtain ⟨hsame, hadds⟩ := @writeServices_unopened fs input w₁ w₂ (s :: ss) _
          fun loc hloc => hopen ⟨loc, hloc⟩
        exact ⟨by rw [hsame], hadds⟩

/-- What the first writer leaves, the second one leaves as well. -/
lemma first_subset (h : fs.LinkFree) (hw : fs.WellFormed) (hw₁ : w₁.Untouching) (hw₂ : w₂.Untouching)
    (hretries : Retries w₁ w₂) (hlodged : Lodged root out w₂ input d n)
    (hlost : (fs.startOf out.anchor).lost = 0) {l : Location} {e : Entry}
    (he : (generateFile fs root out input w₁).fs.get? l = some e) :
    (generateFile fs root out input w₂).fs.get? l = some e := by
  rcases retry_cases h hw hw₁ hw₂ hretries hlodged hlost with
    ⟨hsame, -⟩ | ⟨-, hground, -, -, bytes, hfs₂, hfs₁ | hfs₁⟩
  · rwa [hsame] at he
  · rw [hfs₁] at he
    rw [hfs₂]
    exact (extends_set (ground_eq_vacant.mp hground).2.2 _).keeps l e he
  · rwa [hfs₁] at he

lemma Retries.separated (hretries : Retries w₁ w₂) (hsep : Separated root out w₂ inputs) :
    Separated root out w₁ inputs where
  named := by
    intro input hinput
    rw [hretries.fileName]
    exact hsep.named input hinput
  short := by
    intro input hinput
    rw [hretries.outputPath]
    exact hsep.short input hinput
  apart := by
    refine hsep.apart.imp fun {input other} hapart => ?_
    unfold Apart
    rw [hretries.outputPath, hretries.outputPath]
    exact hapart

/-- Where something stands already nothing is changed. -/
lemma generateFile_of_exists {target : Path} (htarget : outputPath input root out w = .ok target)
    (hexists : sum.exists? target = .ok true) (hservices : servicesOf sum input = servicesOf fs input)
    (hok : ∃ o, (generateFile fs root out input w).result = .ok o) :
    (generateFile sum root out input w).fs = sum ∧ ∃ o, (generateFile sum root out input w).result = .ok o := by
  unfold generateFile at hok ⊢
  rw [hservices]
  generalize servicesOf fs input = served at hok ⊢
  rcases served with ⟨result, log⟩
  cases result with
  | error e =>
    cases e with
    | parse e => exact ⟨rfl, _, rfl⟩
    | nullCharacter =>
      obtain ⟨o, ho⟩ := hok
      cases ho
    | invalid issues =>
      obtain ⟨o, ho⟩ := hok
      cases ho
  | ok services =>
    cases services with
    | nil => exact ⟨rfl, _, rfl⟩
    | cons s ss =>
      simp only [htarget, writeServices, hexists]
      exact ⟨trivial, _, rfl⟩

lemma Retries.lodged (hretries : Retries w₁ w₂) (hlodged : Lodged root out w₂ input d n) :
    Lodged root out w₁ input d n :=
  ⟨hretries.outputPath.trans hlodged.target, hlodged.down, hlodged.name, hlodged.fit⟩

lemma Retries.apart (hretries : Retries w₁ w₂) {other : Path} (hapart : Apart root out w₂ input other) :
    Apart root out w₁ input other := by
  unfold Apart
  rw [hretries.outputPath, hretries.outputPath]
  exact hapart

/-- The file systems have what matters in common: processing comes to an end in both or in none, and adds
the same to a file system that has the entries of both. -/
lemma Parallel.entries {done done' : Done Outcome} (hpar : Parallel fs sum a ps n done done')
    (hkeeps : ∀ l e, fs.get? l = some e → sum.get? l = some e) (l : Location) (e : Entry) :
    sum.get? l = some e ∨ done'.fs.get? l = some e ↔ sum.get? l = some e ∨ done.fs.get? l = some e := by
  obtain ⟨add, -, hfiles, hfiles'⟩ := hpar.files
  rw [hfiles, hfiles']
  cases add l with
  | some new => simp only [Option.some_or]
  | none =>
    simp only [Option.none_or, or_self]
    exact ⟨Or.inl, fun h => h.elim id (hkeeps l e)⟩

lemma Parallel.ok_iff {done done' : Done Outcome} (hpar : Parallel fs fs' a ps n done done') :
    (∃ o, done'.result = .ok o) ↔ ∃ o, done.result = .ok o := by
  have halike := hpar.alike
  constructor
  · rintro ⟨o, ho⟩
    rw [ho] at halike
    obtain ⟨o', ho', -⟩ := exists_of_map_eq_ok halike.symm
    exact ⟨o', ho'⟩
  · rintro ⟨o, ho⟩
    rw [ho] at halike
    obtain ⟨o', ho', -⟩ := exists_of_map_eq_ok halike
    exact ⟨o', ho'⟩

/-- Where only folders are new, nothing that is new matters to the stub file itself. -/
lemma harmless_of_addsFolders (h : fs.LinkFree) (hw : fs.WellFormed) (huntouching : w.Untouching)
    (hlodged : Lodged root out w input d n) (hadds : fs.AddsFolders (generateFile fs root out input w).fs) :
    Harmless fs (generateFile fs root out input w).fs out.anchor (out.parts ++ d) n where
  way := by
    intro l _ hnone e he
    rcases hadds.folders l e he with hold | hfolder
    · rw [hnone] at hold
      cases hold
    · exact hfolder
  spot := by
    intro hoff hnone
    cases he : (generateFile fs root out input w).fs.get? (spot fs out.anchor (out.parts ++ d) n) with
    | none => rfl
    | some e =>
      rcases generateFile_new h hw hlodged.target hlodged.fit hlodged.name huntouching hnone he with
        ⟨-, hmem⟩ | ⟨⟨bytes, rfl⟩, -⟩
      · exact absurd hmem hoff
      · rcases hadds.folders _ _ he with hold | hfolder
        · rw [hnone] at hold
          cases hold
        · cases hfolder

section Rerun

variable {first : List Path} (h : fs.LinkFree) (hw : fs.WellFormed) (hw₁ : w₁.Untouching)
variable (hretries : Retries w₁ w₂) (hlodged : ∀ input ∈ inputs, ∃ d n, Lodged root out w₂ input d n)
variable (hapart : inputs.Pairwise (Apart root out w₂)) (hfirst : first ⊆ inputs)
variable (hsum : IsSum fs (leftovers fs root out w₁ first) sum)
include h hw hw₁ hretries hlodged hapart hfirst hsum

/-- If the first writer has not made the stub file of an input, what the first run has left does not matter
to the input. -/
lemma interchangeable_rerun (hinput : input ∈ inputs) (hown : Lodged root out w₂ input d n)
    (hself : input ∈ first →
      Harmless fs (generateFile fs root out input w₁).fs out.anchor (out.parts ++ d) n) :
    Interchangeable fs sum out.anchor (out.parts ++ d) n := by
  refine hsum.interchangeable fun part hpart => ?_
  obtain ⟨other, hother, rfl⟩ := List.mem_map.mp hpart
  by_cases hsame : other = input
  · subst hsame
    exact hself hother
  · obtain ⟨d', n', hlodged'⟩ := hlodged other (hfirst hother)
    have hsymm : Std.Symm (Apart root out w₂) := ⟨fun i j hij target target' ht ht' =>
      (hij target' target ht' ht).symm⟩
    have hboth : Apart root out w₂ other input := hapart.forall (hfirst hother) hinput hsame
    exact harmless_of_apart h hw hw₁ (hretries.lodged hown) (hretries.lodged hlodged') (hretries.apart hboth)

variable (hw₂ : w₂.Untouching) (hlost : (fs.startOf out.anchor).lost = 0) (hlinks : sum.LinkFree)
variable (hwell : sum.WellFormed)
include hw₂ hlost hlinks hwell

/-- The second writer comes to the end of an input after the first run if and only if it does so at once,
and then adds what is missing. -/
lemma rerun_input (hinput : input ∈ inputs) (hfile : fs.isFile input = .ok true) :
    ((∃ o, (generateFile sum root out input w₂).result = .ok o) ↔
      ∃ o, (generateFile fs root out input w₂).result = .ok o) ∧
    (input ∈ first → ∀ l e, sum.get? l = some e ∨ (generateFile sum root out input w₂).fs.get? l = some e ↔
      sum.get? l = some e ∨ (generateFile fs root out input w₂).fs.get? l = some e) := by
  obtain ⟨d, n, hown⟩ := hlodged input hinput
  have hservices := servicesOf_of_extends hsum.extends hfile
  have hsettled : Interchangeable fs sum out.anchor (out.parts ++ d) n →
      ((∃ o, (generateFile sum root out input w₂).result = .ok o) ↔
        ∃ o, (generateFile fs root out input w₂).result = .ok o) ∧
      (input ∈ first → ∀ l e, sum.get? l = some e ∨ (generateFile sum root out input w₂).fs.get? l = some e ↔
        sum.get? l = some e ∨ (generateFile fs root out input w₂).fs.get? l = some e) := by
    intro hi
    have hpar := generateFile_parallel h hw hown.target hown.fit hown.name hw₂ hlinks hwell hi hservices
    exact ⟨hpar.ok_iff, fun _ => hpar.entries hsum.extends.keeps⟩
  rcases retry_cases h hw hw₁ hw₂ hretries hown hlost with
    ⟨hsame, hadds⟩ | ⟨hq, hground, hok₁, hok₂, bytes, hfs₂, hfs₁ | hfs₁⟩
  · exact hsettled (interchangeable_rerun h hw hw₁ hretries hlodged hapart hfirst hsum hinput hown
      fun _ => harmless_of_addsFolders h hw hw₁ (hretries.lodged hown) hadds)
  · refine hsettled (interchangeable_rerun h hw hw₁ hretries hlodged hapart hfirst hsum hinput hown
      fun _ => harmless_of_addsFolders h hw hw₁ (hretries.lodged hown) ?_)
    rw [hfs₁]
    exact (pave_keeps h hw (hw.firm_startOf _) hown.fit.left).2.2
  · by_cases hmem : input ∈ first
    · -- The stub file stands already, so the second run leaves it alone.
      have hleft : ∀ l e, (generateFile fs root out input w₁).fs.get? l = some e → sum.get? l = some e :=
        fun l e he => (hsum.entries l e).mpr (Or.inr ⟨_, List.mem_map.mpr ⟨input, hmem, rfl⟩, he⟩)
      obtain ⟨hpave, hend, hnone⟩ := ground_eq_vacant.mp hground
      have hway := way_of_pave h hw (hw.firm_startOf _) hown.fit.left hpave
      have hmade : ∀ l e, (generateFile fs root out input w₂).fs.get? l = some e → sum.get? l = some e :=
        fun l e he => hleft l e (by rw [hfs₁]; exact he)
      rw [hfs₂] at hmade
      have hstub : sum.get? (spot fs out.anchor (out.parts ++ d) n) = some (.file bytes) :=
        hmade _ _ (by rw [get?_set (ne_root_of_vacant hnone), if_pos rfl])
      have hexists : sum.exists? ⟨out.anchor, out.parts ++ d ++ [n]⟩ = .ok true := by
        have hstart := hsum.extends.startOf out.anchor
        have hclear := way_of_keeps (fun l e he => hmade l e ((extends_set hnone _).keeps l e he)) hway
        rw [exists_eq hlinks hwell hq hown.fit hown.name, spot, hstart]
        unfold spot at hstub
        simp [hclear, hend, hstub]
      obtain ⟨hfs, hok⟩ := generateFile_of_exists hown.target hexists hservices hok₂
      refine ⟨iff_of_true hok hok₂, fun _ l e => ?_⟩
      rw [hfs, ← hfs₁]
      exact ⟨Or.inl ∘ (·.elim id id), fun he => Or.inl (he.elim id (hleft l e))⟩
    · exact hsettled (interchangeable_rerun h hw hw₁ hretries hlodged hapart hfirst hsum hinput hown
        fun hin => absurd hin hmem)

end Rerun

lemma ok_iff_of_retries (h : fs.LinkFree) (hw : fs.WellFormed) (hw₁ : w₁.Untouching) (hw₂ : w₂.Untouching)
    (hretries : Retries w₁ w₂) (hlodged : Lodged root out w₂ input d n)
    (hlost : (fs.startOf out.anchor).lost = 0) :
    (∃ o, (generateFile fs root out input w₁).result = .ok o) ↔
      ∃ o, (generateFile fs root out input w₂).result = .ok o := by
  rcases retry_cases h hw hw₁ hw₂ hretries hlodged hlost with ⟨hsame, -⟩ | ⟨-, -, hok₁, hok₂, -⟩
  · rw [hsame]
  · exact iff_of_true hok₁ hok₂

/-- Runs that are aborted at the same inputs come to the same inputs. -/
lemma reached_congr (hok : ∀ input ∈ inputs, (∃ o, (generateFile fs' root out input w₂).result = .ok o) ↔
      ∃ o, (generateFile fs root out input w₁).result = .ok o) :
    reached fs' root out w₂ inputs = reached fs root out w₁ inputs := by
  induction inputs with
  | nil => rfl
  | cons input inputs ih =>
    rw [List.forall_mem_cons] at hok
    rw [reached_cons, reached_cons, ih hok.2]
    cases hfirst : (generateFile fs root out input w₁).result with
    | ok o =>
      obtain ⟨o', ho'⟩ := hok.1.mpr ⟨o, hfirst⟩
      rw [ho']
    | error e =>
      cases hsecond : (generateFile fs' root out input w₂).result with
      | ok o =>
        obtain ⟨o', ho'⟩ := hok.1.mp ⟨o, hsecond⟩
        rw [hfirst] at ho'
        cases ho'
      | error e' => rfl

lemma reached_subset : reached fs root out w inputs ⊆ inputs := by
  induction inputs with
  | nil => exact List.nil_subset _
  | cons input inputs ih =>
    rw [reached_cons]
    cases (generateFile fs root out input w).result with
    | ok o => exact List.cons_subset_cons input ih
    | error e => simp

/-- A sum of what inputs leave behind has no more than stub files and folders on the way to them. -/
lemma addsStubs_of_sum (h : fs.LinkFree) (hw : fs.WellFormed) (huntouching : w.Untouching) {first : List Path}
    (hlodged : ∀ input ∈ first, ∃ d n, Lodged root out w input d n)
    (hsum : IsSum fs (leftovers fs root out w first) sum) : AddsStubs fs out sum where
  toExtends := hsum.extends
  new := by
    intro l e hnone he
    rcases (hsum.entries l e).mp he with hold | ⟨part, hpart, he⟩
    · rw [hnone] at hold
      cases hold
    · obtain ⟨input, hinput, rfl⟩ := List.mem_map.mp hpart
      obtain ⟨d, n, hown⟩ := hlodged input hinput
      exact (addsStubs_generateFile h hw huntouching hown).new l e hnone he

/-- Where nothing can be searched nothing is changed. -/
lemma generate_of_undiscovered {e : Files.DiscoveryError} (h : (fs.discover root recursive).result = .error e) :
    (generate none fs root out recursive w).fs = fs := by
  unfold generate
  simp only [Logging.note_none, h]
  cases fs.exists? root with
  | error e => rfl
  | ok found => cases found <;> rfl

/-- The entries of a sum are those of its parts, taken from the first or the second writer. -/
lemma recovered_entries {first : List Path} {once twice : FileSystem}
    (hfirst : IsSum fs (leftovers fs root out w₁ first) sum)
    (htwice : IsSum sum (leftovers sum root out w₂ first) twice)
    (honce : IsSum fs (leftovers fs root out w₂ first) once)
    (hsub : ∀ input ∈ first, ∀ l e, (generateFile fs root out input w₁).fs.get? l = some e →
      (generateFile fs root out input w₂).fs.get? l = some e)
    (hadds : ∀ input ∈ first, ∀ l e,
      sum.get? l = some e ∨ (generateFile sum root out input w₂).fs.get? l = some e ↔
        sum.get? l = some e ∨ (generateFile fs root out input w₂).fs.get? l = some e)
    (l : Location) (e : Entry) : twice.get? l = some e ↔ once.get? l = some e := by
  rw [htwice.entries, honce.entries]
  have hearlier : sum.get? l = some e → fs.get? l = some e ∨
      ∃ part ∈ leftovers fs root out w₂ first, part.get? l = some e := by
    intro hsum
    rcases (hfirst.entries l e).mp hsum with hold | ⟨part, hpart, he⟩
    · exact Or.inl hold
    · obtain ⟨input, hinput, rfl⟩ := List.mem_map.mp hpart
      exact Or.inr ⟨_, List.mem_map.mpr ⟨input, hinput, rfl⟩, hsub input hinput l e he⟩
  constructor
  · rintro (hsum | ⟨part, hpart, he⟩)
    · exact hearlier hsum
    · obtain ⟨input, hinput, rfl⟩ := List.mem_map.mp hpart
      rcases (hadds input hinput l e).mp (Or.inr he) with hsum | he
      · exact hearlier hsum
      · exact Or.inr ⟨_, List.mem_map.mpr ⟨input, hinput, rfl⟩, he⟩
  · rintro (hold | ⟨part, hpart, he⟩)
    · exact Or.inl (hfirst.extends.keeps l e hold)
    · obtain ⟨input, hinput, rfl⟩ := List.mem_map.mp hpart
      rcases (hadds input hinput l e).mpr (Or.inr he) with hsum | he
      · exact Or.inl hsum
      · exact Or.inr ⟨_, List.mem_map.mpr ⟨input, hinput, rfl⟩, he⟩

/-- The inputs are found again after the first run. -/
lemma rediscover (h : fs.LinkFree) (hw : fs.WellFormed) (hroot : root.Proper) (huntouching : w.Untouching)
    (hlinks : sum.LinkFree) (hwell : sum.WellFormed) {first : List Path}
    (hlodged : ∀ input ∈ first, ∃ d n, Lodged root out w input d n)
    (hsum : IsSum fs (leftovers fs root out w first) sum)
    (habove : ¬ fs.destination root <+: fs.destination out)
    (hbelow : ¬ fs.destination out <+: fs.destination root)
    (hfound : (fs.discover root recursive).result = .ok inputs)
    (hrerun : ".." ∈ out.parts → ∃ found, (sum.discover root recursive).result = .ok found) :
    (sum.discover root recursive).result = .ok inputs :=
  (addsStubs_of_sum h hw huntouching hlodged hsum).discover h hw hlinks hwell hroot habove hbelow hfound hrerun

/-- If the input root and the output root lie apart and no stub file meets another, then a run with a writer
that may fail, followed by one with a writer that does not, leaves what the second writer leaves alone. -/
theorem generate_recovers {fs : FileSystem} {root out : Path} {recursive : Bool} {w₁ w₂ : Writer}
    (hlinks : fs.LinkFree) (hwell : fs.WellFormed) (hroot : root.Proper) (hout : out.Proper)
    (hw₁ : w₁.Untouching) (hw₂ : w₂.Untouching) (hretries : Retries w₁ w₂)
    (habove : ¬ fs.destination root <+: fs.destination out)
    (hbelow : ¬ fs.destination out <+: fs.destination root)
    (hsep : ∀ inputs, (fs.discover root recursive).result = .ok inputs → Separated root out w₂ inputs)
    (hadrift : fs.isAdrift out = false)
    (hrerun : ".." ∈ out.parts → ∀ inputs, (fs.discover root recursive).result = .ok inputs →
      ∃ found, ((generate none fs root out recursive w₁).fs.discover root recursive).result = .ok found) :
    let rerun := (generate none (generate none fs root out recursive w₁).fs root out recursive w₂).fs
    let clean := (generate none fs root out recursive w₂).fs
    rerun.here = clean.here ∧ rerun.lost = clean.lost ∧ ∀ l, rerun.get? l = clean.get? l := by
  cases hfound : (fs.discover root recursive).result with
  | error e =>
    rw [generate_of_undiscovered hfound]
    exact ⟨rfl, rfl, fun _ => rfl⟩
  | ok inputs =>
    have hlost : (fs.startOf out.anchor).lost = 0 := by simpa [isAdrift] using hadrift
    have hsep₂ := hsep inputs hfound
    have hfiles := all_discover root inputs hfound
    have hlodged : ∀ input ∈ inputs, ∃ d n, Lodged root out w₂ input d n := fun input hinput =>
      hsep₂.lodged hout hinput (below_discover hlinks hwell root inputs hfound input hinput)
    have hrun₁ := sumRun_of_discover hlinks hwell hw₁ hout hfound (hretries.separated hsep₂)
    have hrun₂ := sumRun_of_discover hlinks hwell hw₂ hout hfound hsep₂
    simp only [(generate_of_discover hfound).1] at hrerun ⊢
    have hfirst : reached fs root out w₁ inputs ⊆ inputs := reached_subset
    have hlodged₁ : ∀ input ∈ reached fs root out w₁ inputs, ∃ d n, Lodged root out w₁ input d n := by
      intro input hinput
      obtain ⟨d, n, hown⟩ := hlodged input (hfirst hinput)
      exact ⟨d, n, hretries.lodged hown⟩
    have hagain := rediscover hlinks hwell hroot hw₁ hrun₁.linkFree hrun₁.wellFormed hlodged₁ hrun₁.files habove
      hbelow hfound fun hdots => hrerun hdots inputs hfound
    have hrun₃ := sumRun_of_discover hrun₁.linkFree hrun₁.wellFormed hw₂ hout hagain hsep₂
    rw [(generate_of_discover hagain).1]
    have hinput := fun input hinput => rerun_input hlinks hwell hw₁ hretries hlodged hsep₂.apart hfirst hrun₁.files
      hw₂ hlost hrun₁.linkFree hrun₁.wellFormed hinput (hfiles input hinput)
    have hok : ∀ input ∈ inputs, (∃ o, (generateFile fs root out input w₂).result = .ok o) ↔
        ∃ o, (generateFile fs root out input w₁).result = .ok o := by
      intro input hmem
      obtain ⟨d, n, hown⟩ := hlodged input hmem
      exact (ok_iff_of_retries hlinks hwell hw₁ hw₂ hretries hown hlost).symm
    -- All three runs come to the same inputs.
    have htwice := hrun₃.files
    have honce := hrun₂.files
    rw [List.nil_append, reached_congr fun input hmem => (hinput input hmem).1.trans (hok input hmem)] at htwice
    rw [List.nil_append, reached_congr hok] at honce
    refine ⟨htwice.here.trans (hrun₁.files.here.trans honce.here.symm),
      htwice.lost.trans (hrun₁.files.lost.trans honce.lost.symm), fun l => Option.ext fun e => ?_⟩
    refine recovered_entries hrun₁.files htwice honce (fun input hmem l e he => ?_)
      (fun input hmem => (hinput input (hfirst hmem)).2 hmem) l e
    obtain ⟨d, n, hown⟩ := hlodged input (hfirst hmem)
    exact first_subset hlinks hwell hw₁ hw₂ hretries hown hlost he

/-- A recording writer that is told to fail for no service makes good what one with failures left out. -/
lemma retries_recorder (r : Recorder) : Retries r.writer (Recorder.writer { r with failures := [] }) where
  fileName := rfl
  steady _ _ _ _ := rfl
  same s base name held hdone := by
    unfold Recorder.writer at hdone ⊢
    cases hfailure : r.failureFor s.name with
    | some message => simp [hfailure] at hdone
    | none =>
      simp only [hfailure]
      rfl

/-- Two inputs in one folder. -/
def pairedInputs : FileSystem where
  entries := [(["in"], .folder),
    (["in", "a.proto"], .file (Text.encode "service S\x7b\x7d".toList)),
    (["in", "b.proto"], .file (Text.encode "service T\x7b\x7d".toList))]
  here := []

/-- The recording writer that fails for the service of the first input. -/
def firstFails : Recorder where
  failures := [("S", "no")]

lemma pairedInputs_found : (pairedInputs.discover (.ofString "in") false).result =
    .ok [.ofString "in/a.proto", .ofString "in/b.proto"] := by
  have hlinks : pairedInputs.LinkFree := by decide
  exact hlinks.discover_of_files ["in"] ["a.proto", "b.proto"] (by decide) (by cbv) (by decide)

theorem pairedInputs_recovers :
    let first := generate none pairedInputs (.ofString "in") (.ofString "o") false firstFails.writer
    let rerun := generate none first.fs (.ofString "in") (.ofString "o") false (Recorder.writer {})
    let clean := generate none pairedInputs (.ofString "in") (.ofString "o") false (Recorder.writer {})
    first.fs.get? ["o", "a.stub"] = none ∧ (first.fs.get? ["o", "b.stub"]).isSome = true ∧
    (clean.fs.get? ["o", "a.stub"]).isSome = true ∧ ∀ l, rerun.fs.get? l = clean.fs.get? l := by
  intro first rerun clean
  have hsep : ∀ inputs, (pairedInputs.discover (.ofString "in") false).result = .ok inputs →
      Separated (.ofString "in") (.ofString "o") (Recorder.writer {}) inputs := by
    intro inputs hfound
    cases pairedInputs_found.symm.trans hfound
    decide +kernel
  obtain ⟨-, -, hentries⟩ := generate_recovers (by decide +kernel) (by decide +kernel)
    (Path.proper_ofString "in") (Path.proper_ofString "o") (Recorder.writer_untouching firstFails)
    (Recorder.writer_untouching {}) (retries_recorder firstFails) (by decide +kernel) (by decide +kernel) hsep
    (by decide +kernel) (fun hdots => absurd hdots (by decide +kernel))
  obtain ⟨hfails, hgoes⟩ : first.fs.get? ["o", "a.stub"] = none ∧ (first.fs.get? ["o", "b.stub"]).isSome = true := by
    simp only [first, (generate_of_discover pairedInputs_found).1]
    decide +kernel
  refine ⟨hfails, hgoes, ?_, hentries⟩
  simp only [clean, (generate_of_discover pairedInputs_found).1]
  decide +kernel

/-- The two inputs, seen from a folder that has been removed. -/
def strandedInputs : FileSystem := { pairedInputs with here := ["w"], lost := 1 }

/-- What the failing writer leaves when the output root is named from the removed folder. -/
def strandedLeftover : FileSystem :=
  (strandedInputs.set ["o"] .folder).set ["o", "b.stub"] (.file (Text.encode "T:\n".toList))

lemma strandedInputs_found : (strandedInputs.discover (.ofString "/in") false).result =
    .ok [.ofString "/in/a.proto", .ofString "/in/b.proto"] := by
  have hlinks : strandedInputs.LinkFree := by decide
  exact hlinks.discover_of_files ["in"] ["a.proto", "b.proto"] (by decide) (by cbv) (by decide)

lemma strandedLeftover_found : (strandedLeftover.discover (.ofString "/in") false).result =
    .ok [.ofString "/in/a.proto", .ofString "/in/b.proto"] := by
  have hlinks : strandedLeftover.LinkFree := by decide
  exact hlinks.discover_of_files ["in"] ["a.proto", "b.proto"] (by decide) (by cbv) (by decide)

/-- The output root is named from a removed folder, so a run ends at the first stub file it finishes. The
failing writer's run finishes that of the second input, and the rerun that of the first; a run of the other
writer alone does not come to the second input. -/
theorem strandedInputs_leftover :
    let first := generate none strandedInputs (.ofString "/in") (.ofString "../o") false firstFails.writer
    let rerun := generate none first.fs (.ofString "/in") (.ofString "../o") false (Recorder.writer {})
    let clean := generate none strandedInputs (.ofString "/in") (.ofString "../o") false (Recorder.writer {})
    strandedInputs.LinkFree ∧ strandedInputs.WellFormed ∧ firstFails.writer.Untouching ∧
    (Recorder.writer {}).Untouching ∧ Retries firstFails.writer (Recorder.writer {}) ∧
    ¬ strandedInputs.destination (.ofString "/in") <+: strandedInputs.destination (.ofString "../o") ∧
    ¬ strandedInputs.destination (.ofString "../o") <+: strandedInputs.destination (.ofString "/in") ∧
    (strandedInputs.discover (.ofString "/in") false).result =
      .ok [.ofString "/in/a.proto", .ofString "/in/b.proto"] ∧
    Separated (.ofString "/in") (.ofString "../o") (Recorder.writer {})
      [.ofString "/in/a.proto", .ofString "/in/b.proto"] ∧
    (rerun.fs.get? ["o", "b.stub"]).isSome = true ∧ clean.fs.get? ["o", "b.stub"] = none := by
  intro first rerun clean
  have hfirst : first.fs = strandedLeftover := by
    simp only [first, (generate_of_discover strandedInputs_found).1]
    decide +kernel
  refine ⟨by decide +kernel, by decide +kernel, Recorder.writer_untouching firstFails,
    Recorder.writer_untouching {}, retries_recorder firstFails, by decide +kernel, by decide +kernel,
    strandedInputs_found, by decide +kernel, ?_, ?_⟩
  · simp only [rerun, hfirst, (generate_of_discover strandedLeftover_found).1]
    decide +kernel
  · simp only [clean, (generate_of_discover strandedInputs_found).1]
    decide +kernel

section Winding

/-- A way that leaves the folder `in` and returns to it, time and again. -/
def winding (rounds : Nat) : List String := (List.replicate rounds ["..", "in"]).flatten

lemma winding_succ (rounds : Nat) : winding (rounds + 1) = ["..", "in"] ++ winding rounds := rfl

/-- Each round on the way adds six bytes to the text of a path. -/
lemma text_winding (rounds : Nat) (x : String) : ∃ way : String,
    Path.text ⟨.here, winding rounds ++ [x]⟩ = way ++ x ∧ way.utf8ByteSize = 6 * rounds ∧ '\x00' ∉ way.toList := by
  have hshown : Path.text ⟨.here, winding rounds ++ [x]⟩ = String.intercalate "/" (winding rounds ++ [x]) := by
    simp [Path.text, Anchor.text]
  rw [hshown]
  clear hshown
  induction rounds with
  | zero => exact ⟨"", by simp [winding, String.intercalate_singleton], rfl, by simp⟩
  | succ rounds ih =>
    obtain ⟨way, htext, hsize, hnull⟩ := ih
    obtain ⟨y, ys, hys⟩ := List.exists_cons_of_ne_nil (show winding rounds ++ [x] ≠ [] by simp)
    refine ⟨"../in/" ++ way, ?_, ?_, ?_⟩
    · rw [winding_succ, List.append_assoc, hys, List.cons_append, List.cons_append, List.nil_append,
        String.intercalate_cons_cons, String.intercalate_cons_cons, ← hys, htext]
      simp only [← String.append_assoc]
      rfl
    · rw [String.utf8ByteSize_append, hsize, show "../in/".utf8ByteSize = 6 from rfl]
      omega
    · rw [String.toList_append, List.mem_append, not_or]
      exact ⟨by decide, hnull⟩

/-- An input root with a text that is almost too long. -/
def windingRoot : Path := ⟨.here, winding 681⟩

/-- Only short names can be asked about under the root. -/
lemma admissible_windingRoot {x : String} (hnull : '\x00' ∉ x.toList) :
    admissible (windingRoot.child x) =
      if x.utf8ByteSize < 10 then .ok () else .error (.onPath .nameTooLong (windingRoot.child x)) := by
  obtain ⟨way, htext, hsize, hway⟩ := text_winding 681 x
  have hshown : (windingRoot.child x).text = way ++ x := htext
  have hnull' : (way ++ x).toList.contains '\x00' = false := by simp [hnull, hway]
  unfold admissible
  rw [hshown, hnull', String.utf8ByteSize_append, hsize, pathLimit]
  by_cases hshort : x.utf8ByteSize < 10
  · rw [if_neg (by simp), if_neg (by omega), if_pos hshort]
  · rw [if_neg (by simp), if_pos (by omega), if_neg hshort]

variable (hhere : fs.startOf .here = ⟨["in"], 0⟩)
variable (hround : fs.pass ⟨["in"], 0⟩ ["..", "in"] = .ok ⟨["in"], 0⟩)
include hhere hround

/-- All the rounds on the way lead nowhere. -/
lemma pass_windingRoot (names : List String) :
    fs.pass (fs.startOf windingRoot.anchor) (windingRoot.parts ++ names) = fs.pass ⟨["in"], 0⟩ names := by
  have hpass : ∀ rounds, fs.pass ⟨["in"], 0⟩ (winding rounds) = .ok ⟨["in"], 0⟩ := by
    intro rounds
    induction rounds with
    | zero => rfl
    | succ rounds ih =>
      rw [winding_succ, pass_append, hround]
      exact ih
  rw [show windingRoot.anchor = .here from rfl, hhere, pass_append, show windingRoot.parts = winding 681 from rfl,
    hpass 681]
  rfl

lemma windingRoot_place (hfolder : fs.get? ["in"] = some .folder) :
    admissible windingRoot = .ok () ∧ fs.isAdrift windingRoot = false ∧
      fs.pass (fs.startOf windingRoot.anchor) windingRoot.parts = .ok ⟨["in"], 0⟩ ∧
      fs.get? ["in"] = some .folder := by
  have hpass := pass_windingRoot hhere hround []
  rw [List.append_nil] at hpass
  refine ⟨?_, ?_, hpass, hfolder⟩
  · exact admissible_of_append (show admissible ⟨.here, winding 681 ++ [""]⟩ = .ok () from
      admissible_windingRoot (by simp))
  · simp [isAdrift, show windingRoot.anchor = .here from rfl, hhere]

/-- A folder with a long name ends the search. -/
lemma windingRoot_refused (h : fs.LinkFree) (hw : fs.WellFormed) (hfolder : fs.get? ["in"] = some .folder)
    (hthere : (fs.get? ["in", "passed-through"]).isSome = true) :
    ∃ e, (fs.discover windingRoot false).result = .error e := by
  have hlong := @admissible_windingRoot "passed-through" (by decide)
  rw [if_neg (by decide)] at hlong
  exact h.discover_of_refused hw ["in"] (windingRoot_place hhere hround hfolder) hthere hlong

end Winding

lemma windingRoot_proper : windingRoot.Proper := by
  intro name hname
  obtain ⟨round, hround, hname⟩ := List.mem_flatten.mp hname
  rw [List.eq_of_mem_replicate hround] at hname
  exact (show ∀ name ∈ ["..", "in"], name ≠ "" ∧ name ≠ "." by decide) name hname

/-- A single input, seen from its folder. -/
def windingInput : FileSystem where
  entries := [(["in"], .folder), (["in", "a.proto"], .file (Text.encode "service S\x7b\x7d".toList))]
  here := ["in"]

/-- An output root that passes through a folder in `in`. -/
def passingOut : Path := ⟨.here, ["passed-through", "..", "..", "o"]⟩

/-- The folders that a run makes on the way to its stub file. -/
def windingPaved : FileSystem := (windingInput.set ["in", "passed-through"] .folder).set ["o"] .folder

/-- The stub file of the single input. -/
def windingStub : FileSystem := windingPaved.set ["o", "a.stub"] (.file (Text.encode "S:\n".toList))

/-- The folder of the input stays in its place. -/
lemma winding_places : ∀ fs ∈ [windingInput, windingPaved, windingStub], fs.LinkFree ∧ fs.WellFormed ∧
    fs.startOf .here = ⟨["in"], 0⟩ ∧ fs.pass ⟨["in"], 0⟩ ["..", "in"] = .ok ⟨["in"], 0⟩ ∧
    fs.get? ["in"] = some .folder := by
  decide

lemma windingInput_place : windingInput.pass ⟨["in"], 0⟩ ["a.proto"] = .ok ⟨["in", "a.proto"], 0⟩ ∧
    windingInput.get? ["in", "a.proto"] = some (.file (Text.encode "service S\x7b\x7d".toList)) ∧
    windingInput.destination passingOut = ["o"] ∧ windingInput.isAdrift passingOut = false := by
  decide

lemma windingInput_stat : windingInput.stat (windingRoot.child "a.proto") =
    .ok (.file (Text.encode "service S\x7b\x7d".toList)) := by
  obtain ⟨hlinks, -, hhere, hround, -⟩ := winding_places windingInput (by simp)
  obtain ⟨hpass, hfile, -⟩ := windingInput_place
  exact hlinks.stat_of_pass (admissible_windingRoot (by decide)) ((pass_windingRoot hhere hround _).trans hpass) hfile

lemma windingInput_found : (windingInput.discover windingRoot false).result =
    .ok [windingRoot.child "a.proto"] := by
  obtain ⟨hlinks, -, hhere, hround, hfolder⟩ := winding_places windingInput (by simp)
  refine hlinks.discover_of_files ["in"] ["a.proto"] (windingRoot_place hhere hround hfolder) (by cbv) ⟨?_, rfl⟩
  intro x hx
  obtain rfl := List.mem_singleton.mp hx
  exact isFile_eq_true.mpr ⟨_, windingInput_stat⟩

/-- Once a folder with a long name stands among the inputs, the search fails. -/
lemma winding_refused (hfs : fs ∈ [windingPaved, windingStub]) :
    ∃ e, (fs.discover windingRoot false).result = .error e := by
  obtain ⟨hlinks, hwell, hhere, hround, hfolder⟩ := winding_places fs (List.mem_cons_of_mem _ hfs)
  have hthere : ∀ fs ∈ [windingPaved, windingStub], (fs.get? ["in", "passed-through"]).isSome = true := by
    decide
  exact windingRoot_refused hhere hround hlinks hwell hfolder (hthere fs hfs)

lemma baseName_windingRoot : baseName (windingRoot.child "a.proto") = baseName (.ofString "a.proto") := by
  have hname : (windingRoot.child "a.proto").name = "a.proto" := by simp [Path.name, Path.child]
  rw [baseName, Path.stem, hname]
  decide

lemma outputPath_windingRoot {r : Recorder} (hsuffix : r.suffix = ".stub") :
    outputPath (windingRoot.child "a.proto") windingRoot passingOut r.writer = .ok (passingOut.child "a.stub") := by
  have htarget := @outputPath_below windingRoot passingOut r.writer ["a.proto"] (by simp)
  rw [show ⟨windingRoot.anchor, windingRoot.parts ++ ["a.proto"]⟩ = windingRoot.child "a.proto" from rfl,
    baseName_windingRoot, show r.writer.fileName _ = _ ++ r.suffix from rfl, hsuffix] at htarget
  rw [htarget]
  decide

/-- All that a run does is to write the stub file of the single input. -/
lemma generate_windingInput {r : Recorder} (hsuffix : r.suffix = ".stub") :
    let run := generate none windingInput windingRoot passingOut false r.writer
    let done := writeServices windingInput (.ofString "a.proto") (passingOut.child "a.stub") r.writer
      [⟨"S", [], by decide⟩]
    run.fs = done.fs ∧ (run.result.map fun report => report.outcomes.map Outcome.status) =
      (done.result.map Outcome.status).map fun status => [status] := by
  dsimp only
  have hservices : (servicesOf windingInput (windingRoot.child "a.proto")).1 = .ok [⟨"S", [], by decide⟩] := by
    rw [servicesOf_of_stat windingInput_stat]
    exact eq_ok_of_toOption (by decide +kernel)
  obtain ⟨hruns, hreport⟩ := @generate_of_discover _ _ passingOut r.writer _ _ windingInput_found
  obtain ⟨heach, heach'⟩ := generateEach_singleton windingInput windingRoot passingOut (windingRoot.child "a.proto")
    r.writer
  obtain ⟨hfs, hresult⟩ := generateFile_of_services hservices (outputPath_windingRoot hsuffix)
  obtain ⟨hsame, hstatus⟩ := writeServices_of_baseName baseName_windingRoot
  rw [hruns, hreport, heach, heach', hfs, hresult, ← hsame, ← hstatus, map_map_result, map_map_result, map_map_result]
  exact ⟨rfl, rfl⟩

/-- The failing writer leaves the folders, and the other one the stub file. -/
lemma windingInput_runs :
    (generate none windingInput windingRoot passingOut false firstFails.writer).fs = windingPaved ∧
    (generate none windingInput windingRoot passingOut false (Recorder.writer {})).fs = windingStub ∧
    ((generate none windingInput windingRoot passingOut false (Recorder.writer {})).result.map fun report =>
      report.outcomes.map Outcome.status) = .ok [.generated] := by
  obtain ⟨hpaved, -⟩ := @generate_windingInput firstFails rfl
  obtain ⟨hstub, hstatus⟩ := @generate_windingInput {} rfl
  rw [hpaved, hstub, hstatus]
  decide +kernel

lemma windingInput_clear : windingInput.LinkFree ∧ windingInput.WellFormed ∧ windingRoot.Proper ∧ passingOut.Proper ∧
    ¬ windingInput.destination windingRoot <+: windingInput.destination passingOut ∧
    ¬ windingInput.destination passingOut <+: windingInput.destination windingRoot ∧
    windingInput.isAdrift passingOut = false := by
  obtain ⟨hlinks, hwell, hhere, hround, hfolder⟩ := winding_places windingInput (by simp)
  obtain ⟨-, -, hpass, -⟩ := windingRoot_place hhere hround hfolder
  obtain ⟨-, -, hout, hadrift⟩ := windingInput_place
  have hroot : windingInput.destination windingRoot = ["in"] := by
    rw [destination, ← along_of_pass windingRoot_proper hpass]
  have hproper : ∀ name ∈ passingOut.parts, name ≠ "" ∧ name ≠ "." := by decide
  rw [hroot, hout]
  exact ⟨hlinks, hwell, windingRoot_proper, hproper, by decide, by decide, hadrift⟩

lemma windingInput_separated :
    Separated windingRoot passingOut (Recorder.writer {}) [windingRoot.child "a.proto"] where
  named := by
    rw [List.forall_mem_singleton, baseName_windingRoot]
    decide
  short := by
    rw [List.forall_mem_singleton, outputPath_windingRoot rfl]
    decide
  apart := List.pairwise_singleton _ _

/-- The output root passes through a folder that the first run makes in the input root. From then on the search
fails there, since that folder cannot be asked about under so long a root. So the rerun comes to no input, and the
stub file that the other writer alone would have left is never written. -/
theorem windingInput_leftover :
    let first := generate none windingInput windingRoot passingOut false firstFails.writer
    let rerun := generate none first.fs windingRoot passingOut false (Recorder.writer {})
    let clean := generate none windingInput windingRoot passingOut false (Recorder.writer {})
    firstFails.writer.Untouching ∧ (Recorder.writer {}).Untouching ∧
    Retries firstFails.writer (Recorder.writer {}) ∧
    (windingInput.LinkFree ∧ windingInput.WellFormed ∧ windingRoot.Proper ∧ passingOut.Proper ∧
      ¬ windingInput.destination windingRoot <+: windingInput.destination passingOut ∧
      ¬ windingInput.destination passingOut <+: windingInput.destination windingRoot ∧
      windingInput.isAdrift passingOut = false) ∧
    (windingInput.discover windingRoot false).result = .ok [windingRoot.child "a.proto"] ∧
    Separated windingRoot passingOut (Recorder.writer {}) [windingRoot.child "a.proto"] ∧
    rerun.fs.get? ["o", "a.stub"] = none ∧ (clean.fs.get? ["o", "a.stub"]).isSome = true := by
  dsimp only
  obtain ⟨hfirst, hclean, -⟩ := windingInput_runs
  obtain ⟨e, he⟩ := @winding_refused windingPaved (by simp)
  rw [hfirst, generate_of_undiscovered he, hclean]
  exact ⟨Recorder.writer_untouching firstFails, Recorder.writer_untouching {}, retries_recorder firstFails,
    windingInput_clear, windingInput_found, windingInput_separated, by decide, by decide⟩

end Stubsmith.Generation
