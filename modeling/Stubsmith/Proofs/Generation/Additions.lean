import Stubsmith.Proofs.Generation.Separation

/-!
# What a run adds

Whatever a run adds is a folder on the way to a stub file, or a stub file, and every stub file lies below
the output root. If neither root leads into the other, the run adds no file at or below the input root, and
it adds folders there only if double dots lead through it. So a later search that comes to its end finds the
inputs that the first one has found.
-/
namespace Stubsmith.Generation

open Files (Path FileSystem Location Entry)
open Files.FileSystem

variable {fs fs' fs'' : FileSystem} {root out input : Path} {w : Writer} {inputs : List Path}
variable {d : List String} {n : String} {loc : Location} {recursive : Bool}

/-- All that is new is folders on the way to places below the output root, and entries there. -/
structure AddsStubs (fs : FileSystem) (out : Path) (fs' : FileSystem) : Prop extends Extends fs fs' where
  new : ∀ l e, fs.get? l = none → fs'.get? l = some e → ∃ d n, ".." ∉ d ∧
    (e = .folder ∧ l ∈ trail (fs.startOf out.anchor) (out.parts ++ d) ∨ l = fs.destination out ++ (d ++ [n]))

lemma AddsStubs.refl (fs : FileSystem) (out : Path) : AddsStubs fs out fs where
  toExtends := .refl fs
  new := by
    intro l e hnone he
    rw [hnone] at he
    cases he

lemma AddsStubs.trans (h : AddsStubs fs out fs') (h' : AddsStubs fs' out fs'') : AddsStubs fs out fs'' where
  toExtends := h.toExtends.trans h'.toExtends
  new := by
    intro l e hnone he
    cases hold : fs'.get? l with
    | none =>
      have hlater := h'.new l e hold he
      rwa [destination, h.startOf] at hlater
    | some old =>
      have hkept := h'.keeps l old hold
      rw [he, Option.some.injEq] at hkept
      subst hkept
      exact h.new l e hnone hold

section Run

variable (h : fs.LinkFree) (hw : fs.WellFormed) (huntouching : w.Untouching)
include h hw huntouching

lemma addsStubs_generateFile (hlodged : Lodged root out w input d n) :
    AddsStubs fs out (generateFile fs root out input w).fs where
  toExtends := extends_generateFile huntouching fs root out input
  new := by
    intro l e hnone he
    refine ⟨d, n, hlodged.down, ?_⟩
    rcases generateFile_new h hw hlodged.target hlodged.fit hlodged.name huntouching hnone he with
      ⟨hfolder, hmem⟩ | ⟨-, hspot, -⟩
    · exact Or.inl ⟨hfolder, hmem⟩
    · rw [spot_lodged hlodged.down] at hspot
      exact Or.inr hspot

/-- A run over inputs with a place below the output root adds stub files and folders on the way to them. -/
theorem addsStubs_generateEach (hlodged : ∀ input ∈ inputs, ∃ d n, Lodged root out w input d n) :
    (generateEach none root out w fs inputs).fs.LinkFree ∧
      (generateEach none root out w fs inputs).fs.WellFormed ∧
      AddsStubs fs out (generateEach none root out w fs inputs).fs := by
  induction inputs generalizing fs with
  | nil => exact ⟨h, hw, .refl fs out⟩
  | cons input inputs ih =>
    rw [List.forall_mem_cons] at hlodged
    obtain ⟨⟨d, n, hinput⟩, hothers⟩ := hlodged
    obtain ⟨hlinks, hwell⟩ := generateFile_keeps h hw hinput.target hinput.fit hinput.name huntouching
    have hadds := addsStubs_generateFile h hw huntouching hinput
    cases hresult : (generateFile fs root out input w).result with
    | error e =>
      rw [(generateEach_of_error hresult inputs).1]
      exact ⟨hlinks, hwell, hadds⟩
    | ok o =>
      obtain ⟨hlinks', hwell', hmore⟩ := ih hlinks hwell hothers
      rw [(generateEach_of_ok hresult inputs).1]
      exact ⟨hlinks', hwell', hadds.trans hmore⟩

end Run

namespace AddsStubs

variable (hadds : AddsStubs fs out fs')
include hadds

/-- Only folders are new at and below a location that is neither above nor below the output root. -/
lemma gains (habove : ¬ loc <+: fs.destination out) (hbelow : ¬ fs.destination out <+: loc) :
    Gains fs fs' loc where
  keeps := fun l e _ he => ⟨e, hadds.keeps l e he, rfl⟩
  folders := by
    intro l e hl he
    cases hold : fs.get? l with
    | some old => exact Or.inl ⟨old, rfl⟩
    | none =>
      obtain ⟨d, n, -, ⟨hfolder, -⟩ | rfl⟩ := hadds.new l e hold he
      · exact Or.inr hfolder
      · rcases List.prefix_or_prefix_of_prefix hl (List.prefix_append _ _) with hpre | hpre
        · exact absurd hpre habove
        · exact absurd hpre hbelow

/-- Without double dots in the output root, nothing is new there. -/
lemma gains_back (hdots : ".." ∉ out.parts) (habove : ¬ loc <+: fs.destination out)
    (hbelow : ¬ fs.destination out <+: loc) : Gains fs' fs loc where
  keeps := by
    intro l e hl he
    cases hold : fs.get? l with
    | some old =>
      have hkept := hadds.keeps l old hold
      rw [he, Option.some.injEq] at hkept
      exact ⟨old, rfl, by rw [hkept]⟩
    | none =>
      exfalso
      obtain ⟨d, n, hd, ⟨-, hmem⟩ | rfl⟩ := hadds.new l e hold he
      · have hnot : ".." ∉ out.parts ++ d := fun hmem => (List.mem_append.mp hmem).elim hdots hd
        obtain ⟨taken, htaken, rfl⟩ := mem_trail_down hnot hmem
        have hdest : fs.destination out = (fs.startOf out.anchor).location ++ out.parts := location_along hdots
        rcases List.prefix_or_prefix_of_prefix htaken (List.prefix_append out.parts d) with hpre | hpre
        · refine habove (hl.trans ?_)
          rw [hdest]
          exact (List.prefix_append_right_inj _).mpr hpre
        · have hover : fs.destination out <+: (fs.startOf out.anchor).location ++ taken := by
            rw [hdest]
            exact (List.prefix_append_right_inj _).mpr hpre
          exact (List.prefix_or_prefix_of_prefix hl hover).elim habove hbelow
      · exact (List.prefix_or_prefix_of_prefix hl (List.prefix_append _ _)).elim habove hbelow
  folders := fun l e _ he => Or.inl ⟨e, hadds.keeps l e he⟩

/-- The inputs are found again. -/
theorem discover (h : fs.LinkFree) (hw : fs.WellFormed) (h' : fs'.LinkFree) (hw' : fs'.WellFormed)
    (hroot : root.Proper) (habove : ¬ fs.destination root <+: fs.destination out)
    (hbelow : ¬ fs.destination out <+: fs.destination root)
    (hfound : (fs.discover root recursive).result = .ok inputs)
    (hrerun : ".." ∈ out.parts → ∃ found, (fs'.discover root recursive).result = .ok found) :
    (fs'.discover root recursive).result = .ok inputs := by
  obtain ⟨e, hstat⟩ := stat_of_discover hfound
  have hstat' := hadds.stat hstat
  have hstart := hadds.startOf root.anchor
  by_cases hdots : ".." ∈ out.parts
  · obtain ⟨found, hagain⟩ := hrerun hdots
    have hbefore := discover_of_gains h hw h' hw' hstart hroot hstat hstat' rfl
      (hadds.gains habove hbelow) hagain
    rw [hfound, Except.ok.injEq] at hbefore
    rw [hbefore, hagain]
  · have hback := hadds.gains_back hdots habove hbelow
    have hdest : fs.destination root = ((fs'.startOf root.anchor).along root.parts).location := by
      rw [hstart]
      rfl
    rw [hdest] at hback
    exact discover_of_gains h' hw' h hw hstart.symm hroot hstat' hstat rfl hback hfound

end AddsStubs

end Stubsmith.Generation
