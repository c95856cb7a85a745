import Stubsmith.Proofs.CommandLine.Conclusion
import Stubsmith.Proofs.Config.Search
import Stubsmith.Proofs.Text.Encoding

/-!
# What is said of a configuration

Loading a configuration ends with settings or with a word on the file, which the command shows before it exits with
code one. The exceptions are few: a lookup can fail before a file is chosen, and the chosen file can have bytes that are
no text, or a scalar that has no value, or stand in a folder without a real path. Then the command has no answer.
-/
namespace Stubsmith.Config

open Files (Path FileSystem FileError)

variable {fs : FileSystem} {named : Option Path} {search : Bool} {p : Path} {bytes : Text.Bytes}

/-- A step of loading failed, and not with a word on the file. -/
def Silent {α : Type} (r : Except LoadError α) : Prop := ∃ e, r = .error e ∧ ∀ e', e ≠ .config e'

section Silent

variable {α β ε : Type} {r : Except LoadError α}

@[simp] lemma not_silent_ok (a : α) : ¬ Silent (.ok a : Except LoadError α) := by
  simp [Silent]

@[simp] lemma silent_error {e : LoadError} : Silent (.error e : Except LoadError α) ↔ ∀ e', e ≠ .config e' := by
  simp [Silent]

lemma not_silent : ¬ Silent r ↔ (∃ a, r = .ok a) ∨ ∃ e, r = .error (.config e) := by
  cases r with
  | error e => cases e <;> simp
  | ok a => simp

lemma silent_bind {f : α → Except LoadError β} : Silent (r >>= f) ↔ Silent r ∨ ∃ a, r = .ok a ∧ Silent (f a) := by
  cases r <;> simp [bind, Except.bind]

@[simp] lemma not_silent_config {x : Except ε α} {f : ε → ConfigError} :
    ¬ Silent (x.mapError fun e => .config (f e)) := by
  cases x <;> simp [Except.mapError]

@[simp] lemma silent_search {x : Except ε α} {f : ε → SearchError} :
    Silent (x.mapError fun e => .search (f e)) ↔ ∃ e, x = .error e := by
  cases x <;> simp [Except.mapError]

end Silent

/-- The file to load: the one that is named, or the nearest one if there is to be a search. -/
inductive Chosen (fs : FileSystem) (search : Bool) : Option Path → Path → Prop
  | named {p : Path} {bytes : Text.Bytes} (h : fs.stat p = .ok (.file bytes)) : Chosen fs search (some p) p
  | found {folder d : Path} (hsearch : search = true) (hreal : fs.realPath ⟨.here, []⟩ = .ok folder)
      (hreached : Reached fs (folder.lineage.take searchLimit) d) (h : Holds fs d) :
      Chosen fs search none (d.child fileName)

/-- A lookup fails before a file is chosen. -/
inductive Unsearchable (fs : FileSystem) (search : Bool) : Option Path → Prop
  | overlong {p : Path} (h : fs.Overlong p) : Unsearchable fs search (some p)
  | unreal {e : Files.RealError} (hsearch : search = true) (h : fs.realPath ⟨.here, []⟩ = .error e) :
      Unsearchable fs search none
  | obscured {folder d : Path} (hsearch : search = true) (hreal : fs.realPath ⟨.here, []⟩ = .ok folder)
      (hreached : Reached fs (folder.lineage.take searchLimit) d) (h : Obscure fs d) : Unsearchable fs search none

/-- The file can be read and has no settings, but nothing is said of it: its bytes are no text, or a scalar in it has no
value, or its folder has no real path. -/
inductive Unaccountable (fs : FileSystem) (p : Path) : Prop
  | notText {bytes : Text.Bytes} (h : fs.readFile p = .ok bytes) (hbytes : ∀ cs, bytes ≠ Text.encode cs)
  | noValue {cs : List Char} {fault : Yaml.Fault} (h : fs.readFile p = .ok (Text.encode cs))
      (hload : Yaml.load (Text.unifyNewlines cs) = .error fault) (hfault : fault ≠ .malformed)
  | unreal {bytes : Text.Bytes} {settings : Settings} {e : Files.RealError} (h : fs.readFile p = .ok bytes)
      (hsettings : settingsOf p bytes = .ok settings) (hreal : fs.realPath p.parent = .error e)

lemma choose_eq_some : choose fs named search = .ok (some p) ↔ Chosen fs search named p := by
  constructor
  · intro h
    unfold choose at h
    split at h
    · split_ifs at h with hsearch
      · obtain ⟨folder, d, hreal, hreached, hholds, rfl⟩ := find_eq_some.mp (mapError_eq_ok.mp h)
        exact .found hsearch hreal hreached hholds
      · cases h
    · split at h
      · cases h
      · cases h
      · next hfile =>
        cases h
        obtain ⟨bytes, hbytes⟩ := FileSystem.isFile_eq_true.mp hfile
        exact .named hbytes
  · intro h
    cases h with
    | named h => rw [choose, FileSystem.isFile_eq_true.mpr ⟨_, h⟩]
    | found hsearch hreal hreached h =>
      rw [choose, if_pos hsearch]
      exact mapError_eq_ok.mpr (find_eq_some.mpr ⟨_, _, hreal, hreached, h, rfl⟩)

/-- A named file that is missing is reported, but not a lookup that fails. -/
lemma silent_choose : Silent (choose fs named search) ↔ Unsearchable fs search named := by
  cases named with
  | none =>
    rw [choose]
    split_ifs with hsearch
    · rw [silent_search, find_eq_error]
      constructor
      · rintro (⟨e, hreal⟩ | ⟨folder, d, hreal, hreached, hlong⟩)
        · exact .unreal hsearch hreal
        · exact .obscured hsearch hreal hreached hlong
      · intro h
        cases h with
        | unreal _ hreal => exact Or.inl ⟨_, hreal⟩
        | obscured _ hreal hreached hlong => exact Or.inr ⟨_, _, hreal, hreached, hlong⟩
    · simp only [not_silent_ok, false_iff]
      intro h
      cases h with
      | unreal hyes _ => exact hsearch hyes
      | obscured hyes _ _ _ => exact hsearch hyes
  | some p =>
    rw [choose]
    constructor
    · intro h
      split at h
      · next hfile => exact .overlong (FileSystem.isFile_eq_error.mp hfile).2
      · simp at h
      · simp at h
    · intro h
      cases h with
      | overlong hlong => simp [FileSystem.isFile_eq_error.mpr ⟨rfl, hlong⟩]

/-- A fault in the text is reported, but neither bytes that are no text nor a scalar without a value. -/
lemma silent_readDocument : Silent (readDocument p bytes) ↔
    (∀ cs, bytes ≠ Text.encode cs) ∨ ∃ cs fault, bytes = Text.encode cs ∧
      Yaml.load (Text.unifyNewlines cs) = .error fault ∧ fault ≠ .malformed := by
  unfold readDocument
  cases hdecode : Text.decode bytes with
  | error e =>
    have hno := Text.decode_eq_error.mp ⟨e, hdecode⟩
    simp [hno]
  | ok cs =>
    obtain rfl := Text.decode_eq_ok.mp hdecode
    cases hload : Yaml.load (Text.unifyNewlines cs) with
    | error fault => cases fault <;> simp [Text.encode_inj, hload]
    | ok doc => simp [Text.encode_inj, hload]

/-- What a document lacks to be a configuration is reported. -/
lemma silent_settingsOf : Silent (settingsOf p bytes) ↔ Silent (readDocument p bytes) := by
  unfold settingsOf
  rw [silent_bind, or_iff_left]
  rintro ⟨doc, -, h⟩
  cases doc with
  | none => exact not_silent_ok _ h
  | some doc =>
    dsimp only at h
    rcases silent_bind.mp h with hentries | ⟨es, -, hsettings⟩
    · exact not_silent_config hentries
    · exact not_silent_config hsettings

lemma silent_loadFile : Silent (loadFile fs p) ↔ Unaccountable fs p := by
  unfold loadFile
  simp only [silent_bind, not_silent_config, silent_search, false_or, mapError_eq_ok, silent_settingsOf,
    silent_readDocument]
  constructor
  · rintro ⟨bytes, hbytes, (hno | ⟨cs, fault, rfl, hload, hfault⟩) | ⟨settings, hsettings, ⟨e, hreal⟩ | ⟨base, -, h⟩⟩⟩
    · exact .notText hbytes hno
    · exact .noValue hbytes hload hfault
    · exact .unreal hbytes hsettings hreal
    · exact absurd h (not_silent_ok _)
  · intro h
    cases h with
    | notText hbytes hno => exact ⟨_, hbytes, Or.inl (Or.inl hno)⟩
    | noValue hbytes hload hfault => exact ⟨_, hbytes, Or.inl (Or.inr ⟨_, _, rfl, hload, hfault⟩)⟩
    | unreal hbytes hsettings hreal => exact ⟨_, hbytes, Or.inr ⟨_, hsettings, Or.inl ⟨_, hreal⟩⟩⟩

/-- The result of loading, with the records on the way noted in the files that are read. -/
def loadWith (noted : Option Path → FileSystem) (fs : FileSystem) (named : Option Path) (search : Bool) :
    Except LoadError Settings := do
  let chosen ← choose fs named search
  (loadChosen (noted chosen) chosen).1

lemma load_fst : (load fs named search).1 = loadWith (fun _ => fs) fs named search := by
  unfold load loadWith
  cases choose fs named search <;> rfl

/-- What is not reported comes of a lookup that fails or of a file that nothing can be said of. -/
lemma silent_loadWith {noted : Option Path → FileSystem} : Silent (loadWith noted fs named search) ↔
    Unsearchable fs search named ∨ ∃ p, Chosen fs search named p ∧ Unaccountable (noted (some p)) p := by
  unfold loadWith
  rw [silent_bind, silent_choose]
  refine or_congr_right ⟨?_, ?_⟩
  · rintro ⟨chosen, hchoose, h⟩
    cases chosen with
    | none => exact absurd h (not_silent_ok _)
    | some p => exact ⟨p, choose_eq_some.mp hchoose, silent_loadFile.mp (loadChosen_fst ▸ h)⟩
  · rintro ⟨p, hchosen, h⟩
    exact ⟨some p, choose_eq_some.mpr hchosen, by rwa [loadChosen_fst, silent_loadFile]⟩

end Stubsmith.Config

namespace Stubsmith.CommandLine

open Config (LoadError Settings Silent Unsearchable Chosen Unaccountable loadWith)
open Files (Path FileSystem)
open Logging (Journal Stamp note)

variable {o : Options} {plugins : List Plugin} {journal : Option Journal} {fs fs' : FileSystem}
variable {env : Environment} {stamp : Stamp} {args : List String}

/-- The command gets as far as its configuration, with its log open. -/
structure Starts (env : Environment) (stamp : Stamp) (plugins : List Plugin) (fs : FileSystem) (args : List String)
    (o : Options) (journal : Option Journal) (fs' : FileSystem) : Prop where
  parsed : Options.parse args = .ok o
  unasked : o.notice = none ∧ o.listWriters = false
  proper : hasNull o = false ∧ o.extra = []
  opened : openLog (setup env o) stamp fs = some (journal, fs')
  registered : (Registry.default plugins).failure = none

/-- The command shows the message and exits with code one. -/
structure Refuses (o : Options) (message : String) (result : Result) : Prop where
  ending : result.ending = .exit 1
  shown : if o.json then result.out = shown [errorJson message ++ "\n"]
    else ∃ records, result.err = records ++ shown ["❌ " ++ message ++ "\n" ++ hint]

/-- What the command learns of its configuration. -/
def configuration (o : Options) (plugins : List Plugin) (journal : Option Journal) (fs : FileSystem) :
    Except LoadError Settings :=
  let ready := note journal (Registry.default plugins).log fs
  loadWith (fun chosen => note journal (Config.begun chosen) ready) ready (o.config.map Path.ofString) true

/-- The command ends with its configuration or goes on to generate. -/
lemma perform_cases (journal : Option Journal) (fs : FileSystem) (hlist : o.listWriters = false)
    (hfailure : (Registry.default plugins).failure = none) :
    (∃ e fs' log, configuration o plugins journal fs = .error e ∧
      perform o plugins journal fs = (unconfigured o fs' e).after log) ∨
    ∃ settings registry fs' log, configuration o plugins journal fs = .ok settings ∧
      perform o plugins journal fs = (generate o registry journal fs' settings).after log := by
  unfold configuration loadWith perform
  simp only [hfailure, hlist, Bool.false_eq_true, if_false]
  generalize note journal (Registry.default plugins).log fs = ready
  cases Config.choose ready (o.config.map Path.ofString) true with
  | error e => exact Or.inl ⟨e, _, _, rfl, rfl⟩
  | ok chosen =>
    dsimp only [bind, Except.bind]
    cases (Config.loadChosen (note journal (Config.begun chosen) ready) chosen).1 with
    | error e => exact Or.inl ⟨e, _, _, rfl, rfl⟩
    | ok settings => exact Or.inr ⟨settings, _, _, _, rfl, rfl⟩

/-- Once there is a configuration, nothing that happens is blamed on it. -/
lemma ending_generate {registry : Registry} {settings : Settings} {e : LoadError} :
    (generate o registry journal fs settings).ending ≠ .crash (.config e) := by
  intro h
  unfold generate at h
  split at h
  · cases h
  · dsimp only at h
    split at h
    · cases h
    · next r _ => cases (congrArg Prod.fst (deed_present r)).symm.trans h

/-- A word on the file is shown; all else that hinders loading ends the command where it stands. -/
lemma ending_unconfigured {e : LoadError} : (∃ e', (unconfigured o fs e).ending = .crash (.config e')) ↔
    ∀ e', e ≠ .config e' := by
  have hdeed : (unconfigured o fs e).ending = unloadedEnding e := congrArg Prod.fst (deed_unconfigured e)
  rw [hdeed]
  cases e <;> simp [unloadedEnding]

lemma ending_perform (hlist : o.listWriters = false) (hfailure : (Registry.default plugins).failure = none) :
    (∃ e, (perform o plugins journal fs).ending = .crash (.config e)) ↔
      Silent (configuration o plugins journal fs) := by
  rcases perform_cases journal fs hlist hfailure with
    ⟨e, fs', log, hload, heffect⟩ | ⟨settings, registry, fs', log, hload, heffect⟩
  · rw [heffect, hload, Config.silent_error]
    exact ending_unconfigured
  · rw [heffect, hload]
    simp only [Config.not_silent_ok, iff_false, not_exists]
    exact fun e => ending_generate

lemma run_of_starts (h : Starts env stamp plugins fs args o journal fs') :
    run env stamp plugins fs args = runLogged (setup env o) stamp journal plugins fs' o := by
  unfold run runOptions
  simp only [h.parsed, h.unasked.1, h.proper.1, h.proper.2, h.opened, List.isEmpty_nil, Bool.not_true,
    Bool.false_eq_true, if_false]

lemma refuses_of_config {e : Config.ConfigError} (h : Starts env stamp plugins fs args o journal fs')
    (hload : configuration o plugins journal fs' = .error (.config e)) :
    Refuses o e.message (run env stamp plugins fs args) := by
  rw [run_of_starts h]
  unfold runLogged
  rcases perform_cases journal fs' h.unasked.2 h.registered with
    ⟨e', fs'', log, hload', heffect⟩ | ⟨settings, registry, fs'', log, hload', heffect⟩
  · cases hload.symm.trans hload'
    rw [heffect]
    by_cases hjson : o.json = true
    · constructor <;> simp [unconfigured, refuse, hjson, Effect.after]
    · constructor <;> simp [unconfigured, refuse, hjson, Effect.after]
  · cases hload.symm.trans hload'

/-- Loading ends with settings or with a word on the file, unless a lookup fails before a file is chosen or nothing can
be said of the file. The command shows the word and exits with code one; otherwise it ends where it stands. -/
theorem load_reported (fs : FileSystem) (named : Option Path) (search : Bool) :
    ((∃ settings, (Config.load fs named search).1 = .ok settings) ∨
        (∃ e, (Config.load fs named search).1 = .error (.config e)) ↔
      ¬ (Unsearchable fs search named ∨ ∃ p, Chosen fs search named p ∧ Unaccountable fs p)) ∧
    ∀ env stamp plugins args o journal fs', Starts env stamp plugins fs args o journal fs' →
      let ready := note journal (Registry.default plugins).log fs'
      let noted := fun chosen => note journal (Config.begun chosen) ready
      let named := o.config.map Path.ofString
      let result := run env stamp plugins fs args
      ((∃ e, result.ending = .crash (.config e)) ↔
        Unsearchable ready true named ∨ ∃ p, Chosen ready true named p ∧ Unaccountable (noted (some p)) p) ∧
      ∀ e, loadWith noted ready named true = .error (.config e) → Refuses o e.message result := by
  constructor
  · rw [← Config.not_silent, Config.load_fst, Config.silent_loadWith]
  · intro env stamp plugins args o journal fs' h
    refine ⟨?_, fun e hload => refuses_of_config h hload⟩
    rw [run_of_starts h]
    exact (ending_perform h.unasked.2 h.registered).trans Config.silent_loadWith

/-- A folder with nothing but a configuration. -/
def configured (bytes : Text.Bytes) : FileSystem := { entries := [(["protostub.yml"], .file bytes)], here := [] }

lemma starts_configured (bytes : Text.Bytes) :
    Starts {} ⟨"", "", "", ""⟩ [] (configured bytes) [] {} none (configured bytes) :=
  ⟨rfl, ⟨rfl, rfl⟩, ⟨by decide, rfl⟩, rfl, by decide +kernel⟩

theorem openBracket_reported : Starts {} ⟨"", "", "", ""⟩ [] (configured [0x5B]) [] {} none (configured [0x5B]) ∧
    Refuses {} "Invalid YAML in /protostub.yml" (run {} ⟨"", "", "", ""⟩ [] (configured [0x5B]) []) := by
  have hload : loadWith (fun _ => configured [0x5B]) (configured [0x5B]) none true =
      .error (.config (.notYaml ⟨.root, ["protostub.yml"]⟩)) := by decide +kernel
  have hstarts := starts_configured [0x5B]
  exact ⟨hstarts, ((load_reported (configured [0x5B]) none true).2 _ _ _ _ _ _ _ hstarts).2 _ hload⟩

/-- A byte that begins no character ends the command where it stands. -/
theorem strayByte_unreported : (configured [0xFF]).WellFormed ∧
    (∀ settings, (Config.load (configured [0xFF]) none true).1 ≠ .ok settings) ∧
    (∀ e, (Config.load (configured [0xFF]) none true).1 ≠ .error (.config e)) ∧
    ∃ e, (run {} ⟨"", "", "", ""⟩ [] (configured [0xFF]) []).ending = .crash (.config e) := by
  have hload : (Config.load (configured [0xFF]) none true).1 = .error (.notUtf8 ⟨0, 1, 0xFF, .startByte⟩) := by
    decide +kernel
  have hsilent : Silent (configuration {} [] none (configured [0xFF])) := ⟨_, Config.load_fst ▸ hload, by simp⟩
  refine ⟨by decide +kernel, by simp [hload], by simp [hload], ?_⟩
  rw [run_of_starts (starts_configured [0xFF])]
  exact (ending_perform rfl (starts_configured [0xFF]).registered).mpr hsilent

end Stubsmith.CommandLine
