import Mathlib.Data.List.Nodup
import Stubsmith.Proofs.Writer.Registration

/-!
# Plugins beside what is registered

Loading plugins leaves every entry of a registry where it is and puts new ones behind them. Which ones these are is said
of the plugins alone: in the order of their names, those that can be loaded bring a factory each, and it comes in unless
its name is taken or an earlier plugin has brought it. So a second loading has nothing to add, and the bundled writer
stays the first one of the default registry.
-/
namespace Stubsmith.Registry

variable {r : Registry} {p : Plugin} {ps : List Plugin} {f : Factory} {n : String}
variable {taken : List String} {e : String × Factory} {es : List (String × Factory)}

/-- The plugins in the order of their names; those with one name stay in the order in which they were given. -/
structure InNameOrder (given ordered : List Plugin) : Prop where
  same : ordered.Perm given
  sorted : ordered.Pairwise fun a b => a.name ≤ b.name
  stable : ∀ name, ordered.filter (·.name = name) = given.filter (·.name = name)

/-- The order in which plugins are loaded. -/
def nameLe (a b : Plugin) : Bool := decide (a.name ≤ b.name)

lemma nameLe_trans (a b c : Plugin) (hab : nameLe a b = true) (hbc : nameLe b c = true) : nameLe a c = true :=
  decide_eq_true (String.le_trans (of_decide_eq_true hab) (of_decide_eq_true hbc))

lemma nameLe_total (a b : Plugin) : (nameLe a b || nameLe b a) = true := by
  simpa [nameLe] using String.le_total a.name b.name

lemma sorted_mergeSort (ps : List Plugin) : (ps.mergeSort nameLe).Pairwise fun a b => a.name ≤ b.name :=
  (List.pairwise_mergeSort nameLe_trans nameLe_total ps).imp fun hab => of_decide_eq_true hab

/-- Plugins with one name are a sorted part of the list, and sorting keeps such a part. -/
lemma stable_mergeSort (ps : List Plugin) (name : String) :
    (ps.mergeSort nameLe).filter (·.name = name) = ps.filter (·.name = name) := by
  have hpart : (ps.filter (·.name = name)).Pairwise fun a b => nameLe a b = true := by
    refine List.pairwise_of_forall_mem_list fun a ha b hb => decide_eq_true ?_
    have hname : a.name = name := of_decide_eq_true (List.mem_filter.mp ha).2
    have hname' : b.name = name := of_decide_eq_true (List.mem_filter.mp hb).2
    exact (hname.trans hname'.symm) ▸ String.le_refl a.name
  have hsub := (List.sublist_mergeSort nameLe_trans nameLe_total hpart List.filter_sublist).filter (·.name = name)
  rw [List.filter_filter] at hsub
  simp only [Bool.and_self] at hsub
  exact (hsub.eq_of_length ((List.mergeSort_perm ps _).symm.filter _).length_eq).symm

lemma inNameOrder_mergeSort (ps : List Plugin) : InNameOrder ps (ps.mergeSort nameLe) where
  same := List.mergeSort_perm ps nameLe
  sorted := sorted_mergeSort ps
  stable := stable_mergeSort ps

/-- Plugins with distinct names have one order only. -/
lemma mergeSort_of_perm {ps' : List Plugin} (hperm : ps'.Perm ps) (hdistinct : (ps.map (·.name)).Nodup) :
    ps'.mergeSort nameLe = ps.mergeSort nameLe := by
  refine List.Perm.eq_of_pairwise ?_ (sorted_mergeSort ps') (sorted_mergeSort ps)
    ((List.mergeSort_perm ps' _).trans (hperm.trans (List.mergeSort_perm ps _).symm))
  intro a b ha hb hab hba
  rw [List.mem_mergeSort] at ha hb
  exact List.inj_on_of_nodup_map hdistinct (hperm.subset ha) hb (String.le_antisymm hab hba)

/-- The factories of the plugins that can be loaded, with the names under which they are to be registered. -/
def offered (ps : List Plugin) : List (String × Factory) :=
  ps.filterMap fun p => p.load.toOption.map fun f => (pluginKey p f, f)

/-- The offers whose names are neither taken nor those of earlier offers. -/
def newcomers (taken : List String) (offers : List (String × Factory)) : List (String × Factory) :=
  (offers.zipIdx.filter fun x => x.1.1 ∉ taken ∧ x.1.1 ∉ (offers.take x.2).map Prod.fst).map Prod.fst

lemma newcomers_cons : newcomers taken (e :: es) =
    (if e.1 ∈ taken then [] else [e]) ++ newcomers (taken ++ [e.1]) es := by
  have hrest : ((es.zipIdx (0 + 1)).filter fun x =>
      x.1.1 ∉ taken ∧ x.1.1 ∉ ((e :: es).take x.2).map Prod.fst).map Prod.fst = newcomers (taken ++ [e.1]) es := by
    rw [List.zipIdx_succ, List.filter_map, List.map_map, newcomers]
    congr 1
    refine List.filter_congr fun x _ => ?_
    simp [and_assoc]
  rw [← hrest, newcomers, List.zipIdx_cons, List.filter_cons]
  by_cases he : e.1 ∈ taken
  · simp [he]
  · simp [he]

/-- Only which names are taken counts. -/
lemma newcomers_congr {taken' : List String} (h : ∀ n, n ∈ taken' ↔ n ∈ taken) :
    newcomers taken' es = newcomers taken es := by
  simp only [newcomers, h]

lemma newcomers_of_mem (h : e.1 ∈ taken) : newcomers taken (e :: es) = newcomers taken es := by
  rw [newcomers_cons, if_pos h, List.nil_append]
  refine newcomers_congr fun n => ?_
  rw [List.mem_append, List.mem_singleton, or_iff_left_of_imp]
  rintro rfl
  exact h

lemma newcomers_of_not_mem (h : e.1 ∉ taken) :
    newcomers taken (e :: es) = e :: newcomers (taken ++ [e.1]) es := by
  rw [newcomers_cons, if_neg h, List.singleton_append]

/-- Once the newcomers are in, every offered name is taken. -/
lemma mem_names_newcomers (he : e ∈ es) : e.1 ∈ taken ++ (newcomers taken es).map Prod.fst := by
  induction es generalizing taken with
  | nil => cases he
  | cons x es ih =>
    by_cases hx : x.1 ∈ taken
    · rw [newcomers_of_mem hx]
      rcases List.mem_cons.mp he with rfl | he
      · exact List.mem_append_left _ hx
      · exact ih he
    · rw [newcomers_of_not_mem hx, List.map_cons, List.append_cons]
      rcases List.mem_cons.mp he with rfl | he
      · exact List.mem_append_left _ (List.mem_append_right _ (List.mem_singleton_self _))
      · exact ih he

/-- No offer comes in if all their names are taken. -/
lemma newcomers_eq_nil (h : ∀ e ∈ es, e.1 ∈ taken) : newcomers taken es = [] := by
  induction es with
  | nil => rfl
  | cons x es ih =>
    rw [List.forall_mem_cons] at h
    rw [newcomers_of_mem h.1, ih h.2]

lemma put_of_not_mem (h : n ∉ es.map Prod.fst) : put n f es = es ++ [(n, f)] := by
  induction es with
  | nil => rfl
  | cons x es ih =>
    rw [List.map_cons, List.mem_cons, not_or] at h
    rw [put, if_neg (Ne.symm h.1), ih h.2, List.cons_append]

lemma key_pluginKey : key f (some (pluginKey p f)) = pluginKey p f := by
  by_cases hkey : pluginKey p f = ""
  · have hname : f.name = "" := by
      by_contra hne
      rw [pluginKey, if_neg hne] at hkey
      exact hne hkey
    rw [hkey, key, hname]
    rfl
  · exact key_some hkey

lemma pluginKey_ne (h : p.name ≠ "") : pluginKey p f ≠ "" := by
  unfold pluginKey
  split_ifs with hname
  · exact h
  · exact hname

/-- What becomes of a plugin that comes before others: it cannot be loaded, its name is taken, it has no name, or its
factory comes in behind the others. -/
lemma loadEach_cons (r : Registry) (p : Plugin) (ps : List Plugin) :
    (∃ reason log, p.load = .error reason ∧ r.loadEach (p :: ps) = { r.loadEach ps with log }) ∨
    (∃ f log, p.load = .ok f ∧ pluginKey p f ∈ r.names ∧ r.loadEach (p :: ps) = { r.loadEach ps with log }) ∨
    (∃ f, p.load = .ok f ∧ pluginKey p f = "" ∧ r.loadEach (p :: ps) = ⟨r, 0, some ⟨f⟩, []⟩) ∨
    ∃ f log, p.load = .ok f ∧ pluginKey p f ∉ r.names ∧ pluginKey p f ≠ "" ∧
      let rest := (⟨r.entries ++ [(pluginKey p f, f)]⟩ : Registry).loadEach ps
      r.loadEach (p :: ps) = { rest with added := rest.added + 1, log } := by
  rw [loadEach]
  cases p.load with
  | error reason => exact Or.inl ⟨reason, _, rfl, rfl⟩
  | ok f =>
    refine Or.inr ?_
    dsimp only
    rw [show (if f.name = "" then p.name else f.name) = pluginKey p f from rfl]
    by_cases hlisted : pluginKey p f ∈ r.names
    · rw [if_pos (by simpa using hlisted)]
      exact Or.inl ⟨f, _, rfl, hlisted, rfl⟩
    · rw [if_neg (by simpa using hlisted)]
      by_cases hkey : pluginKey p f = ""
      · rw [register_unnamed (key_pluginKey.trans hkey)]
        exact Or.inr (Or.inl ⟨f, rfl, hkey, rfl⟩)
      · obtain ⟨log, hregister⟩ := @register_named r f (some (pluginKey p f)) (by rwa [key_pluginKey])
        rw [key_pluginKey, put_of_not_mem hlisted] at hregister
        rw [hregister]
        exact Or.inr (Or.inr ⟨f, _, rfl, hlisted, hkey, rfl⟩)

/-- What is registered stays where it is, also if a plugin without a name ends the loading. -/
lemma prefix_loadEach : r.entries <+: (r.loadEach ps).registry.entries := by
  induction ps generalizing r with
  | nil => exact List.prefix_refl r.entries
  | cons p ps ih =>
    rcases loadEach_cons r p ps with ⟨-, log, -, h⟩ | ⟨-, log, -, -, h⟩ | ⟨f, -, -, h⟩ | ⟨f, log, -, -, -, h⟩
    · rw [h]
      exact ih
    · rw [h]
      exact ih
    · exact ⟨[], by rw [h, List.append_nil]⟩
    · rw [h]
      exact (List.prefix_append _ _).trans ih

lemma offered_error {reason : String} (h : p.load = .error reason) : offered (p :: ps) = offered ps := by
  simp [offered, h, Except.toOption]

lemma offered_ok (h : p.load = .ok f) : offered (p :: ps) = (pluginKey p f, f) :: offered ps := by
  simp [offered, h, Except.toOption]

/-- Loading plugins that have names adds the newcomers among what they offer. -/
lemma loadEach_named (h : ∀ p ∈ ps, p.name ≠ "") :
    (r.loadEach ps).registry.entries = r.entries ++ newcomers r.names (offered ps) ∧
      (r.loadEach ps).added = (newcomers r.names (offered ps)).length ∧ (r.loadEach ps).failure = none := by
  induction ps generalizing r with
  | nil => exact ⟨(List.append_nil _).symm, rfl, rfl⟩
  | cons p ps ih =>
    rw [List.forall_mem_cons] at h
    rcases loadEach_cons r p ps with ⟨reason, log, hload, hrest⟩ | ⟨f, log, hload, hlisted, hrest⟩ |
      ⟨f, -, hkey, -⟩ | ⟨f, log, hload, hlisted, -, hrest⟩
    · rw [hrest, offered_error hload]
      exact ih h.2
    · rw [hrest, offered_ok hload, newcomers_of_mem hlisted]
      exact ih h.2
    · exact absurd hkey (pluginKey_ne h.1)
    · have hnames : (⟨r.entries ++ [(pluginKey p f, f)]⟩ : Registry).names = r.names ++ [pluginKey p f] :=
        List.map_append
      obtain ⟨hentries, hadded, hfailure⟩ := @ih ⟨r.entries ++ [(pluginKey p f, f)]⟩ h.2
      rw [hnames] at hentries hadded
      rw [hrest, offered_ok hload, newcomers_of_not_mem hlisted, List.length_cons]
      exact ⟨hentries.trans (List.append_cons ..).symm, congrArg (· + 1) hadded, hfailure⟩

/-- Loading the same plugins again adds nothing. -/
lemma loadEach_again (h : ∀ p ∈ ps, p.name ≠ "") :
    ((r.loadEach ps).registry.loadEach ps).registry = (r.loadEach ps).registry ∧
      ((r.loadEach ps).registry.loadEach ps).added = 0 := by
  have htaken : newcomers (r.loadEach ps).registry.names (offered ps) = [] := by
    refine newcomers_eq_nil fun e he => ?_
    rw [names, (loadEach_named h).1, List.map_append]
    exact mem_names_newcomers he
  obtain ⟨hentries, hadded, -⟩ := @loadEach_named (r.loadEach ps).registry ps h
  rw [htaken] at hentries hadded
  rw [List.append_nil] at hentries
  exact ⟨congrArg Registry.mk hentries, hadded⟩

/-- The bundled writer is the first one, whatever is installed. -/
lemma head?_default (installed : List Plugin) :
    (default installed).registry.entries.head? = some ("PythonServiceWriter", .python) := by
  obtain ⟨others, hothers⟩ := @prefix_loadEach ⟨[(Factory.python.name, .python)]⟩
    ((installed.filter (·.group == Plugin.writerGroup)).mergeSort nameLe)
  exact congrArg List.head? hothers.symm

lemma named_of_mem {plugins : List Plugin} {group : String} (h : ∀ p ∈ plugins, p.group = group → p.name ≠ "") :
    ∀ p ∈ (plugins.filter (·.group == group)).mergeSort nameLe, p.name ≠ "" := by
  intro p hp
  obtain ⟨hmem, hgroup⟩ := List.mem_filter.mp (List.mem_mergeSort.mp hp)
  exact h p hmem (beq_iff_eq.mp hgroup)

/-- Loading plugins disturbs nothing that is registered. The newcomers among what they offer, in the order of their names,
come in behind the others and are counted. The order in which plugins with distinct names are given has no part in it,
and a second loading adds nothing. In the default registry the bundled writer is the first one and is taken when none
is named. -/
theorem loadPlugins_admits {plugins : List Plugin} {group : String}
    (hnamed : ∀ p ∈ plugins, p.group = group → p.name ≠ "") (r : Registry) :
    let loaded := r.loadPlugins plugins group
    let again := loaded.registry.loadPlugins plugins group
    (∃ ordered, InNameOrder (plugins.filter (·.group == group)) ordered ∧
      loaded.registry.entries = r.entries ++ newcomers r.names (offered ordered) ∧
      loaded.added = (newcomers r.names (offered ordered)).length ∧ loaded.failure = none) ∧
    (((plugins.filter (·.group == group)).map (·.name)).Nodup →
      ∀ plugins', plugins'.Perm plugins → r.loadPlugins plugins' group = loaded) ∧
    (again.registry = loaded.registry ∧ again.added = 0 ∧ again.failure = none) ∧
    ∀ installed, (default installed).registry.entries.head? = some ("PythonServiceWriter", .python) ∧
      ((∀ p ∈ installed, p.group = Plugin.writerGroup → p.name ≠ "") → (default installed).failure = none) ∧
      ∀ given : Option (List Text.CodePoint), given.getD [] = [] →
        ∃ f, ((default installed).registry.select given).1 = some f ∧ ∀ fs, f.make fs = (.ok Python.writer, fs) := by
  intro loaded again
  have hordered := named_of_mem hnamed
  refine ⟨⟨_, inNameOrder_mergeSort _, loadEach_named hordered⟩, fun hdistinct plugins' hperm => ?_, ?_,
    fun installed => ⟨head?_default installed, fun hinstalled => ?_, fun given hgiven => ⟨.python, ?_, fun fs => rfl⟩⟩⟩
  · exact congrArg r.loadEach (mergeSort_of_perm (hperm.filter _) hdistinct)
  · obtain ⟨hregistry, hadded⟩ := @loadEach_again r _ hordered
    exact ⟨hregistry, hadded, (loadEach_named hordered).2.2⟩
  · exact (loadEach_named (named_of_mem hinstalled)).2.2
  · rw [select_first hgiven, head?_default]
    rfl

/-- Plugins in the order of their names: one whose name is taken, one that cannot be loaded, one whose factory has no
name, and two that offer the same name. -/
def mixedPlugins : List Plugin :=
  [⟨"a", "a:A", Plugin.writerGroup, .ok .python⟩, ⟨"b", "b:B", Plugin.writerGroup, .error "no module"⟩,
    ⟨"c", "c:C", Plugin.writerGroup, .ok { Factory.recorder with name := "" }⟩,
    ⟨"y", "y:Y", Plugin.writerGroup, .ok .recorder⟩, ⟨"z", "z:Z", Plugin.writerGroup, .ok .recorder⟩]

theorem mixedPlugins_admitted :
    let bundled : Registry := ⟨[(Factory.python.name, .python)]⟩
    let loaded := bundled.loadPlugins mixedPlugins.reverse Plugin.writerGroup
    loaded.registry.names = ["PythonServiceWriter", "c", "MockServiceWriter"] ∧ loaded.added = 2 ∧
      (loaded.registry.loadPlugins mixedPlugins.reverse Plugin.writerGroup).added = 0 := by
  intro bundled loaded
  have hnamed : ∀ p ∈ mixedPlugins.reverse, p.group = Plugin.writerGroup → p.name ≠ "" := by decide
  obtain ⟨-, hperm, ⟨-, hagain, -⟩, -⟩ := loadPlugins_admits hnamed bundled
  have hloaded : loaded = bundled.loadEach mixedPlugins :=
    calc loaded = bundled.loadPlugins mixedPlugins Plugin.writerGroup :=
          (hperm (by decide) mixedPlugins (List.reverse_perm _).symm).symm
      _ = bundled.loadEach mixedPlugins := congrArg bundled.loadEach (List.mergeSort_of_pairwise (by decide))
  refine ⟨?_, ?_, hagain⟩
  · rw [hloaded]
    decide +kernel
  · rw [hloaded]
    rfl

end Stubsmith.Registry
