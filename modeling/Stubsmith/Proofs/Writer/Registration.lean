import Mathlib.Data.List.Induction
import Stubsmith.Proofs.Writer.Emission

/-!
# Registries over time

A registry is the outcome of its history. The history of a registry is a list of acts on single names: a
registration puts a factory under a name, a plugin offers one for a name that may be taken, and a removal drops a
name. Which factory a name has, and in which order the names are listed, is said of the history alone and holds
after any calls, those that fail included.
-/
namespace Stubsmith.Registry

variable {r : Registry} {es : List (String × Factory)} {n m : String} {f : Factory}

lemma names_put : (put n f es).map Prod.fst =
    if n ∈ es.map Prod.fst then es.map Prod.fst else es.map Prod.fst ++ [n] := by
  induction es with
  | nil => rfl
  | cons e es ih =>
    rw [put]
    by_cases he : e.1 = n
    · rw [if_pos he, List.map_cons, List.map_cons, he, if_pos List.mem_cons_self]
    · rw [if_neg he, List.map_cons, ih, List.map_cons]
      by_cases hn : n ∈ es.map Prod.fst
      · rw [if_pos hn, if_pos (List.mem_cons_of_mem _ hn)]
      · rw [if_neg hn, if_neg (by simp [Ne.symm he, hn]), List.cons_append]

lemma get?_put : (⟨put n f es⟩ : Registry).get? m = if n = m then some f else (⟨es⟩ : Registry).get? m := by
  induction es with
  | nil => by_cases h : n = m <;> simp [get?, put, h]
  | cons e es ih =>
    rw [put]
    by_cases he : e.1 = n
    · rw [if_pos he]
      by_cases h : n = m
      · simp [get?, h]
      · have hne : e.1 ≠ m := he ▸ h
        simp [get?, h, hne]
    · rw [if_neg he]
      by_cases hm : e.1 = m
      · have hne : n ≠ m := fun h => he (hm.trans h.symm)
        simp [get?, hm, hne]
      · simpa [get?, hm] using ih

lemma names_unregister : (r.unregister n).names = r.names.filter (· != n) := by
  rw [names, unregister, names, List.filter_map]
  rfl

lemma get?_unregister : (r.unregister n).get? m = if n = m then none else r.get? m := by
  rw [get?, unregister, List.find?_filter]
  by_cases h : n = m
  · subst h
    simp
  · rw [if_neg h, get?]
    congr 2
    funext e
    by_cases he : e.1 = m
    · simp [he, Ne.symm h]
    · simp [he]

lemma isSome_get? : (r.get? n).isSome ↔ n ∈ r.names := by
  rw [get?, Option.isSome_map, List.find?_isSome, names, List.mem_map]
  simp

/-- What can happen to a name. -/
inductive Act
  | put (name : String) (f : Factory)
  /-- A plugin has a factory for the name, if it is not taken. -/
  | offer (name : String) (f : Factory)
  | drop (name : String)

/-- The registry after an act. -/
def perform (r : Registry) : Act → Registry
  | .put n f => ⟨put n f r.entries⟩
  | .offer n f => if n ∈ r.names then r else ⟨put n f r.entries⟩
  | .drop n => r.unregister n

/-- After the act the name is taken. -/
def Act.Claims (n : String) : Act → Prop
  | .put m _ => m = n
  | .offer m _ => m = n
  | .drop _ => False

/-- The name is taken at the end of the history: it was claimed and not dropped since. -/
def Held (acts : List Act) (n : String) : Prop :=
  ∃ before a after, acts = before ++ a :: after ∧ a.Claims n ∧ .drop n ∉ after

/-- The name has been taken without interruption since the act with the index: that one claimed it while it was
free, and it was not dropped since. -/
def Since (acts : List Act) (n : String) (i : Nat) : Prop :=
  ∃ before a after, acts = before ++ a :: after ∧ before.length = i ∧ a.Claims n ∧ ¬ Held before n ∧
    .drop n ∉ after

/-- The act takes effect as a registration of the factory under the name, after the acts `before`. -/
def Act.Registers (before : List Act) (n : String) (f : Factory) : Act → Prop
  | .put m g => m = n ∧ g = f
  | .offer m g => m = n ∧ g = f ∧ ¬ Held before n
  | .drop _ => False

/-- The last registration of the name that took effect gave it the factory, and it was not dropped since. -/
def Latest (acts : List Act) (n : String) (f : Factory) : Prop :=
  ∃ before a after, acts = before ++ a :: after ∧ a.Registers before n f ∧ .drop n ∉ after ∧
    ∀ between b rest g, after = between ++ b :: rest → ¬ b.Registers (before ++ a :: between) n g

variable {acts more : List Act} {a x : Act} {i : Nat}

/-- An act of a history with one more act at its end is that one or an act of the history. -/
lemma concat_eq_iff {before after : List Act} : acts ++ [x] = before ++ a :: after ↔
    (acts = before ∧ x = a ∧ after = []) ∨ ∃ rest, after = rest ++ [x] ∧ acts = before ++ a :: rest := by
  cases after using List.reverseRecOn with
  | nil =>
    constructor
    · intro h
      obtain ⟨rfl, hx⟩ := List.append_inj' h rfl
      exact Or.inl ⟨rfl, List.singleton_inj.mp hx, rfl⟩
    · rintro (⟨rfl, rfl, -⟩ | ⟨rest, hrest, -⟩)
      · rfl
      · simp at hrest
  | append_singleton rest y _ =>
    rw [← List.cons_append, ← List.append_assoc]
    constructor
    · intro h
      obtain ⟨rfl, hx⟩ := List.append_inj' h rfl
      exact Or.inr ⟨rest, by rw [hx], rfl⟩
    · rintro (⟨-, -, hnil⟩ | ⟨rest', hrest, rfl⟩)
      · simp at hnil
      · obtain ⟨rfl, hx⟩ := List.append_inj' hrest rfl
        rw [hx]

lemma held_concat : Held (acts ++ [x]) n ↔ x.Claims n ∨ Held acts n ∧ x ≠ .drop n := by
  constructor
  · rintro ⟨before, a, after, hsplit, hclaims, hdrop⟩
    rcases concat_eq_iff.mp hsplit with ⟨rfl, rfl, rfl⟩ | ⟨rest, rfl, rfl⟩
    · exact Or.inl hclaims
    · rw [List.mem_append, List.mem_singleton, not_or] at hdrop
      exact Or.inr ⟨⟨before, a, rest, rfl, hclaims, hdrop.1⟩, Ne.symm hdrop.2⟩
  · rintro (hclaims | ⟨⟨before, a, rest, rfl, hclaims, hdrop⟩, hx⟩)
    · exact ⟨acts, x, [], rfl, hclaims, List.not_mem_nil⟩
    · exact ⟨before, a, rest ++ [x], by simp, hclaims, by simp [hdrop, Ne.symm hx]⟩

lemma since_concat : Since (acts ++ [x]) n i ↔
    Since acts n i ∧ x ≠ .drop n ∨ i = acts.length ∧ x.Claims n ∧ ¬ Held acts n := by
  constructor
  · rintro ⟨before, a, after, hsplit, rfl, hclaims, hfree, hdrop⟩
    rcases concat_eq_iff.mp hsplit with ⟨rfl, rfl, rfl⟩ | ⟨rest, rfl, rfl⟩
    · exact Or.inr ⟨rfl, hclaims, hfree⟩
    · rw [List.mem_append, List.mem_singleton, not_or] at hdrop
      exact Or.inl ⟨⟨before, a, rest, rfl, rfl, hclaims, hfree, hdrop.1⟩, Ne.symm hdrop.2⟩
  · rintro (⟨⟨before, a, rest, rfl, rfl, hclaims, hfree, hdrop⟩, hx⟩ | ⟨rfl, hclaims, hfree⟩)
    · exact ⟨before, a, rest ++ [x], by simp, rfl, hclaims, hfree, by simp [hdrop, Ne.symm hx]⟩
    · exact ⟨acts, x, [], rfl, rfl, hclaims, hfree, List.not_mem_nil⟩

lemma latest_concat : Latest (acts ++ [x]) n f ↔
    x.Registers acts n f ∨ Latest acts n f ∧ x ≠ .drop n ∧ ∀ g, ¬ x.Registers acts n g := by
  constructor
  · rintro ⟨before, a, after, hsplit, hregisters, hdrop, hlast⟩
    rcases concat_eq_iff.mp hsplit with ⟨rfl, rfl, rfl⟩ | ⟨rest, rfl, rfl⟩
    · exact Or.inl hregisters
    · rw [List.mem_append, List.mem_singleton, not_or] at hdrop
      refine Or.inr ⟨⟨before, a, rest, rfl, hregisters, hdrop.1, ?_⟩, Ne.symm hdrop.2, ?_⟩
      · rintro between b behind g rfl
        exact hlast between b (behind ++ [x]) g (by simp)
      · intro g
        exact hlast rest x [] g rfl
  · rintro (hregisters | ⟨⟨before, a, rest, rfl, hregisters, hdrop, hlast⟩, hx, hnone⟩)
    · exact ⟨acts, x, [], rfl, hregisters, List.not_mem_nil, by simp⟩
    · refine ⟨before, a, rest ++ [x], by simp, hregisters, by simp [hdrop, Ne.symm hx], ?_⟩
      intro between b behind g hsplit
      rcases concat_eq_iff.mp hsplit with ⟨rfl, rfl, -⟩ | ⟨behind', -, rfl⟩
      · exact hnone g
      · exact hlast between b behind' g rfl

lemma Act.Claims.ne_drop (h : a.Claims n) : a ≠ .drop m := by
  rintro rfl
  exact h

/-- A name is taken at the end of a history exactly if it has been since some act. -/
lemma held_iff_since : Held acts n ↔ ∃ i, Since acts n i := by
  induction acts using List.reverseRecOn with
  | nil => simp [Held, Since]
  | append_singleton acts x ih =>
    simp only [held_concat, since_concat]
    constructor
    · rintro (hclaims | ⟨hheld, hx⟩)
      · by_cases hheld : Held acts n
        · obtain ⟨i, hi⟩ := ih.mp hheld
          exact ⟨i, Or.inl ⟨hi, hclaims.ne_drop⟩⟩
        · exact ⟨acts.length, Or.inr ⟨rfl, hclaims, hheld⟩⟩
      · obtain ⟨i, hi⟩ := ih.mp hheld
        exact ⟨i, Or.inl ⟨hi, hx⟩⟩
    · rintro ⟨i, ⟨hi, hx⟩ | ⟨-, hclaims, -⟩⟩
      · exact Or.inr ⟨ih.mpr ⟨i, hi⟩, hx⟩
      · exact Or.inl hclaims

lemma Since.lt_length (h : Since acts n i) : i < acts.length := by
  obtain ⟨before, a, after, rfl, rfl, -⟩ := h
  simp

/-- The registry is what the history says. -/
structure Records (acts : List Act) (r : Registry) : Prop where
  distinct : r.names.Nodup
  named : "" ∉ r.names
  held : ∀ n, n ∈ r.names ↔ Held acts n
  latest : ∀ n f, r.get? n = some f ↔ Latest acts n f
  ordered : r.names.Pairwise fun a b => ∀ i j, Since acts a i → Since acts b j → i < j

lemma records_empty : Records [] empty where
  distinct := List.nodup_nil
  named := List.not_mem_nil
  held := by simp [names, empty, Held]
  latest := by simp [get?, empty, Latest]
  ordered := List.Pairwise.nil

/-- A name that is claimed keeps its place, or comes to the end. -/
lemma names_perform (h : a.Claims n) :
    (r.perform a).names = if n ∈ r.names then r.names else r.names ++ [n] := by
  cases a with
  | put m f =>
    cases h
    exact names_put
  | offer m f =>
    cases h
    rw [perform]
    split_ifs with hm
    · rfl
    · exact names_put.trans (if_neg hm)
  | drop m => cases h

lemma get?_perform (hheld : ∀ n, n ∈ r.names ↔ Held acts n) : (r.perform a).get? n = some f ↔
    a.Registers acts n f ∨ r.get? n = some f ∧ a ≠ .drop n ∧ ∀ g, ¬ a.Registers acts n g := by
  cases a with
  | put m g =>
    rw [perform, get?_put]
    by_cases hm : m = n <;> simp [Act.Registers, hm]
  | offer m g =>
    rw [perform]
    by_cases hlisted : m ∈ r.names
    · rw [if_pos hlisted]
      have hfull : m = n → Held acts n := fun hm => hm ▸ (hheld m).mp hlisted
      by_cases hm : m = n <;> simp [Act.Registers, hm, hfull]
    · rw [if_neg hlisted, get?_put]
      have hfree : m = n → ¬ Held acts n := fun hm hn => hlisted (hm ▸ (hheld n).mpr hn)
      by_cases hm : m = n <;> simp [Act.Registers, hm, hfree]
  | drop m =>
    rw [perform, get?_unregister]
    by_cases hm : m = n <;> simp [Act.Registers, hm]

lemma Act.Claims.eq (h : a.Claims n) (h' : a.Claims m) : n = m := by
  cases a with
  | put k f => exact h.symm.trans h'
  | offer k f => exact h.symm.trans h'
  | drop k => cases h

namespace Records

lemma latest_perform (h : Records acts r) (n : String) (f : Factory) :
    (r.perform a).get? n = some f ↔ Latest (acts ++ [a]) n f := by
  rw [get?_perform h.held, latest_concat, h.latest]

/-- No further act makes a listed name a newer one. -/
lemma since_of_concat (h : Records acts r) (hn : n ∈ r.names) (hi : Since (acts ++ [a]) n i) : Since acts n i := by
  rcases since_concat.mp hi with ⟨hi, -⟩ | ⟨-, -, hfree⟩
  · exact hi
  · exact absurd ((h.held n).mp hn) hfree

lemma ordered_concat (h : Records acts r) (a : Act) : r.names.Pairwise fun b c =>
    ∀ i j, Since (acts ++ [a]) b i → Since (acts ++ [a]) c j → i < j :=
  h.ordered.imp_of_mem fun hb hc hlt i j hi hj => hlt i j (h.since_of_concat hb hi) (h.since_of_concat hc hj)

lemma claim_listed (h : Records acts r) (hm : a.Claims m) (hlisted : m ∈ r.names) :
    Records (acts ++ [a]) (r.perform a) := by
  have hnames : (r.perform a).names = r.names := (names_perform hm).trans (if_pos hlisted)
  refine ⟨hnames ▸ h.distinct, hnames ▸ h.named, fun n => ?_, h.latest_perform, hnames ▸ h.ordered_concat a⟩
  rw [hnames, held_concat, ← h.held]
  constructor
  · exact fun hn => Or.inr ⟨hn, hm.ne_drop⟩
  · rintro (hn | ⟨hn, -⟩)
    · exact hn.eq hm ▸ hlisted
    · exact hn

lemma claim_new (h : Records acts r) (hm : a.Claims m) (hne : m ≠ "") (hlisted : m ∉ r.names) :
    Records (acts ++ [a]) (r.perform a) := by
  have hnames : (r.perform a).names = r.names ++ [m] := (names_perform hm).trans (if_neg hlisted)
  refine ⟨?_, ?_, fun n => ?_, h.latest_perform, ?_⟩
  · rw [hnames]
    refine List.nodup_append.mpr ⟨h.distinct, List.pairwise_singleton _ m, fun b hb c hc => ?_⟩
    rw [List.mem_singleton.mp hc]
    exact fun hbm => hlisted (hbm ▸ hb)
  · rw [hnames]
    simp [h.named, Ne.symm hne]
  · rw [hnames, held_concat, ← h.held, List.mem_append, List.mem_singleton]
    constructor
    · rintro (hn | rfl)
      · exact Or.inr ⟨hn, hm.ne_drop⟩
      · exact Or.inl hm
    · rintro (hn | ⟨hn, -⟩)
      · exact Or.inr (hn.eq hm)
      · exact Or.inl hn
  · rw [hnames]
    refine List.pairwise_append.mpr ⟨h.ordered_concat a, List.pairwise_singleton _ _, ?_⟩
    intro b hb c hc i j hi hj
    obtain rfl := List.mem_singleton.mp hc
    -- The new name has been listed since this very act, every other one since an earlier one.
    rcases since_concat.mp hj with ⟨hj, -⟩ | ⟨rfl, -, -⟩
    · exact absurd ((h.held c).mpr (held_iff_since.mpr ⟨j, hj⟩)) hlisted
    · exact (h.since_of_concat hb hi).lt_length

lemma drop (h : Records acts r) (m : String) : Records (acts ++ [.drop m]) (r.perform (.drop m)) := by
  have hnames : (r.perform (.drop m)).names = r.names.filter (· != m) := names_unregister
  refine ⟨?_, ?_, fun n => ?_, h.latest_perform, ?_⟩
  · rw [hnames]
    exact h.distinct.filter _
  · rw [hnames]
    exact fun hmem => h.named (List.mem_filter.mp hmem).1
  · rw [hnames, held_concat, ← h.held, List.mem_filter, bne_iff_ne]
    simp only [Act.Claims, false_or, ne_eq, Act.drop.injEq, @eq_comm _ m]
  · rw [hnames]
    exact (h.ordered_concat _).filter _

/-- An act that claims no empty name keeps the registry and its history in step. -/
lemma perform (h : Records acts r) (ha : ¬ a.Claims "") : Records (acts ++ [a]) (r.perform a) := by
  have hclaim : ∀ m, a.Claims m → Records (acts ++ [a]) (r.perform a) := by
    intro m hm
    have hne : m ≠ "" := fun hempty => ha (hempty ▸ hm)
    by_cases hlisted : m ∈ r.names
    · exact h.claim_listed hm hlisted
    · exact h.claim_new hm hne hlisted
  cases a with
  | put m f => exact hclaim m rfl
  | offer m f => exact hclaim m rfl
  | drop m => exact h.drop m

lemma performAll (h : Records acts r) (hmore : ∀ a ∈ more, ¬ a.Claims "") :
    Records (acts ++ more) (more.foldl Registry.perform r) := by
  induction more generalizing acts r with
  | nil => simpa using h
  | cons a more ih =>
    rw [List.forall_mem_cons] at hmore
    have hrest := ih (h.perform hmore.1) hmore.2
    rwa [List.append_assoc] at hrest

end Records

/-- A call that changes a registry. -/
inductive Call
  | register (f : Factory) (name : Option String)
  | unregister (name : String)
  | load (plugins : List Plugin) (group : String)

/-- The registry after a call. A registration that fails leaves it as it was, and loading plugins that fails leaves
those that were loaded by then. -/
def after (r : Registry) : Call → Registry
  | .register f name =>
    match r.register f name with
    | .ok (r', _) => r'
    | .error _ => r
  | .unregister n => r.unregister n
  | .load plugins group => (r.loadPlugins plugins group).registry

/-- The registry after some calls, from the empty one. -/
def ofCalls (calls : List Call) : Registry := calls.foldl after empty

/-- The name under which a factory is registered: the one that is given, else its own. -/
def key (f : Factory) (name : Option String) : String :=
  if name.getD "" = "" then f.name else name.getD ""

/-- The name under which the factory of a plugin is registered: its own, else that of the plugin. -/
def pluginKey (p : Plugin) (f : Factory) : String := if f.name = "" then p.name else f.name

/-- What plugins offer in order, up to the first one that has no name. -/
def offers : List Plugin → List Act
  | [] => []
  | p :: ps =>
    match p.load with
    | .error _ => offers ps
    | .ok f => if pluginKey p f = "" then [] else .offer (pluginKey p f) f :: offers ps

/-- The acts that a call amounts to. -/
def Call.history : Call → List Act
  | .register f name => if key f name = "" then [] else [.put (key f name) f]
  | .unregister n => [.drop n]
  | .load plugins group =>
    offers ((plugins.filter (·.group == group)).mergeSort fun a b => decide (a.name ≤ b.name))

variable {name : Option String} {ps : List Plugin}

lemma register_unnamed (h : key f name = "") : r.register f name = .error ⟨f⟩ := by
  unfold register
  exact if_pos h

lemma register_named (h : key f name ≠ "") :
    ∃ log, r.register f name = .ok (⟨put (key f name) f r.entries⟩, log) := by
  unfold register
  exact ⟨_, if_neg h⟩

lemma named_offers : ∀ a ∈ offers ps, ∃ n, n ≠ "" ∧ a.Claims n := by
  induction ps with
  | nil => simp [offers]
  | cons p ps ih =>
    rw [offers]
    cases p.load with
    | error reason => exact ih
    | ok f =>
      dsimp only
      split_ifs with hkey
      · simp
      · exact List.forall_mem_cons.mpr ⟨⟨_, hkey, rfl⟩, ih⟩

lemma Call.history_named (call : Call) : ∀ a ∈ call.history, ¬ a.Claims "" := by
  cases call with
  | register f name =>
    rw [history]
    split_ifs with hkey
    · simp
    · simpa [Act.Claims] using hkey
  | unregister n => simp [history, Act.Claims]
  | load plugins group =>
    intro a ha hempty
    obtain ⟨n, hn, hclaims⟩ := named_offers a ha
    exact hn (hclaims.eq hempty)

lemma key_some {given : String} (h : given ≠ "") : key f (some given) = given := by
  rw [key, Option.getD_some, if_neg h]

/-- Loading plugins is performing what they offer. -/
lemma loadEach_eq (h : "" ∉ r.names) : (r.loadEach ps).registry = (offers ps).foldl perform r := by
  induction ps generalizing r with
  | nil => rfl
  | cons p ps ih =>
    rw [loadEach, offers]
    cases p.load with
    | error reason => exact ih h
    | ok f =>
      dsimp only
      rw [show (if f.name = "" then p.name else f.name) = pluginKey p f from rfl]
      by_cases hkey : pluginKey p f = ""
      · have hname : f.name = "" := by
          by_contra hne
          rw [pluginKey, if_neg hne] at hkey
          exact hne hkey
        have hunnamed : key f (some (pluginKey p f)) = "" := by rw [hkey, key, hname]; rfl
        rw [if_neg (by simp [hkey, h]), register_unnamed hunnamed, if_pos hkey]
        rfl
      · rw [if_neg hkey, List.foldl_cons, perform]
        by_cases hlisted : pluginKey p f ∈ r.names
        · rw [if_pos (by simpa using hlisted), if_pos hlisted]
          exact ih h
        · obtain ⟨log, hregister⟩ := @register_named r f (some (pluginKey p f)) (by rwa [key_some hkey])
          rw [key_some hkey] at hregister
          rw [if_neg (by simpa using hlisted), hregister, if_neg hlisted]
          have hnames : (⟨put (pluginKey p f) f r.entries⟩ : Registry).names = r.names ++ [pluginKey p f] :=
            names_put.trans (if_neg hlisted)
          refine ih ?_
          rw [hnames, List.mem_append, List.mem_singleton, not_or]
          exact ⟨h, Ne.symm hkey⟩

lemma after_eq (h : "" ∉ r.names) (call : Call) : r.after call = call.history.foldl perform r := by
  cases call with
  | register f name =>
    rw [after, Call.history]
    by_cases hkey : key f name = ""
    · rw [register_unnamed hkey, if_pos hkey]
      rfl
    · obtain ⟨log, hregister⟩ := @register_named r f name hkey
      rw [hregister, if_neg hkey]
      rfl
  | unregister n => rfl
  | load plugins group => exact loadEach_eq h

/-- Calls keep a registry and its history in step. -/
theorem Records.afterCalls (h : Records acts r) (calls : List Call) :
    Records (acts ++ calls.flatMap Call.history) (calls.foldl after r) := by
  induction calls generalizing acts r with
  | nil => simpa using h
  | cons call calls ih =>
    have hfirst := h.performAll call.history_named
    rw [← after_eq h.named] at hfirst
    have hrest := ih hfirst
    rwa [List.append_assoc, ← List.flatMap_cons] at hrest

/-- Names come in behind those that are listed. -/
lemma prefix_foldl (h : ∀ a ∈ more, ∃ n, a.Claims n) : r.names <+: (more.foldl perform r).names := by
  induction more generalizing r with
  | nil => exact List.prefix_refl _
  | cons a more ih =>
    rw [List.forall_mem_cons] at h
    obtain ⟨⟨n, hn⟩, hmore⟩ := h
    refine List.IsPrefix.trans ?_ (ih hmore)
    rw [names_perform hn]
    split_ifs
    · exact List.prefix_refl _
    · exact List.prefix_append _ _

/-- What a call does to the names. -/
structure Steady (r : Registry) : Prop where
  /-- A factory is refused exactly if it has no name, and then nothing changes. -/
  refused : ∀ f name, ((∃ e, r.register f name = .error e) ↔ key f name = "") ∧
    (key f name = "" → r.after (.register f name) = r)
  /-- A listed name that is registered again keeps its place. -/
  again : ∀ f name, key f name ∈ r.names → (r.after (.register f name)).names = r.names
  /-- A name that is dropped and registered again comes to the end. -/
  anew : ∀ f name, key f name ≠ "" →
    ((r.after (.unregister (key f name))).after (.register f name)).names =
      r.names.filter (· != key f name) ++ [key f name]
  /-- The names that stay keep their order, and new ones come behind them. -/
  order : ∀ call, r.names.filter (· ∈ (r.after call).names) <+: (r.after call).names

lemma names_register (h : key f name ≠ "") : (r.after (.register f name)).names =
    if key f name ∈ r.names then r.names else r.names ++ [key f name] := by
  obtain ⟨log, hregister⟩ := @register_named r f name h
  rw [after, hregister]
  exact names_put

lemma steady (h : "" ∉ r.names) : Steady r where
  refused := by
    intro f name
    by_cases hkey : key f name = ""
    · have herror : r.register f name = .error ⟨f⟩ := register_unnamed hkey
      refine ⟨iff_of_true ⟨_, herror⟩ hkey, fun _ => ?_⟩
      rw [after, herror]
    · obtain ⟨log, hregister⟩ := @register_named r f name hkey
      refine ⟨iff_of_false ?_ hkey, fun hempty => absurd hempty hkey⟩
      rintro ⟨e, he⟩
      rw [hregister] at he
      cases he
  again := by
    intro f name hlisted
    have hkey : key f name ≠ "" := fun hempty => h (hempty ▸ hlisted)
    rw [names_register hkey, if_pos hlisted]
  anew := by
    intro f name hkey
    rw [names_register hkey, after, names_unregister, if_neg (by simp)]
  order := by
    intro call
    have hprefix : r.names <+: (r.after call).names →
        r.names.filter (· ∈ (r.after call).names) <+: (r.after call).names := by
      intro hp
      rwa [List.filter_eq_self.mpr fun n hn => by simpa using hp.subset hn]
    cases call with
    | unregister n =>
      have hstay : r.names.filter (· ∈ r.names.filter (· != n)) = r.names.filter (· != n) :=
        List.filter_congr fun m hm => by simp [hm, bne, Bool.beq_eq_decide_eq]
      rw [after, names_unregister]
      exact ⟨[], by rw [hstay, List.append_nil]⟩
    | register f name =>
      refine hprefix ?_
      rw [after_eq h]
      refine prefix_foldl fun a ha => ?_
      rw [Call.history] at ha
      split_ifs at ha
      · cases ha
      · exact ⟨key f name, List.mem_singleton.mp ha ▸ rfl⟩
    | load plugins group =>
      refine hprefix ?_
      rw [after_eq h]
      refine prefix_foldl fun a ha => ?_
      obtain ⟨n, -, hclaims⟩ := named_offers a ha
      exact ⟨n, hclaims⟩

lemma select_first {given : Option (List Text.CodePoint)} (h : given.getD [] = []) :
    (r.select given).1 = r.entries.head?.map Prod.snd := by
  rw [select]
  simp only [h, ne_eq, not_true_eq_false, if_false]
  cases r.entries with
  | nil => rfl
  | cons e es => rfl

/-- Without a name the factory is taken whose name has been listed longest. -/
lemma Records.select_oldest (h : Records acts r) {given : Option (List Text.CodePoint)} (hg : given.getD [] = [])
    (hf : (r.select given).1 = some f) : ∃ n i, r.get? n = some f ∧ Since acts n i ∧
      ∀ m ∈ r.names, m ≠ n → ∀ j, Since acts m j → i < j := by
  rw [select_first hg] at hf
  have hordered := h.ordered
  have hheld := h.held
  obtain ⟨e, he, rfl⟩ := Option.map_eq_some_iff.mp hf
  obtain ⟨es, hes⟩ := List.head?_eq_some_iff.mp he
  have hnames : r.names = e.1 :: es.map Prod.fst := by rw [names, hes, List.map_cons]
  rw [hnames, List.pairwise_cons] at hordered
  have hlisted : e.1 ∈ r.names := hnames ▸ List.mem_cons_self
  obtain ⟨i, hi⟩ := held_iff_since.mp ((hheld e.1).mp hlisted)
  refine ⟨e.1, i, by simp [get?, hes], hi, fun m hm hne j hj => ?_⟩
  rw [hnames] at hm
  exact hordered.1 m ((List.mem_cons.mp hm).resolve_left hne) i j hi hj

/-- A registry after any calls. Its names are distinct and not empty; a name has a factory exactly if it is listed,
which is that of its last registration to take effect; the names are listed in the order in which they came to stay;
calls move them as little as they can; and without a name the factory is taken whose name has been listed
longest. -/
theorem ofCalls_follows (calls : List Call) :
    let r := ofCalls calls
    let acts := calls.flatMap Call.history
    r.names.Nodup ∧ "" ∉ r.names ∧
      (∀ n, (r.get? n).isSome ↔ n ∈ r.names) ∧
      (∀ n f, r.get? n = some f ↔ Latest acts n f) ∧
      (∀ n, n ∈ r.names ↔ ∃ i, Since acts n i) ∧
      (r.names.Pairwise fun a b => ∀ i j, Since acts a i → Since acts b j → i < j) ∧
      Steady r ∧
      ∀ given : Option (List Text.CodePoint), given.getD [] = [] →
        ((r.select given).1 = none ↔ r.names = []) ∧
        ∀ f, (r.select given).1 = some f → ∃ n i, r.get? n = some f ∧ Since acts n i ∧
          ∀ m ∈ r.names, m ≠ n → ∀ j, Since acts m j → i < j := by
  intro r acts
  have h : Records acts r := records_empty.afterCalls calls
  refine ⟨h.distinct, h.named, fun n => isSome_get?, h.latest, fun n => (h.held n).trans held_iff_since, h.ordered,
    steady h.named, fun given hg => ⟨?_, fun f hf => h.select_oldest hg hf⟩⟩
  rw [select_first hg, Option.map_eq_none_iff, List.head?_eq_none_iff, names, List.map_eq_nil_iff]

/-- The first of two writers is dropped and comes back. -/
def returning : List Call :=
  [.register .python none, .register .recorder none, .unregister Factory.python.name, .register .python none]

theorem returning_follows :
    (ofCalls returning).names = [Factory.recorder.name, Factory.python.name] ∧
      ∃ n i, (ofCalls returning).get? n = some .recorder ∧ Since (returning.flatMap Call.history) n i ∧
        ∀ m ∈ (ofCalls returning).names, m ≠ n →
          ∀ j, Since (returning.flatMap Call.history) m j → i < j := by
  obtain ⟨-, -, -, -, -, -, -, hselect⟩ := ofCalls_follows returning
  exact ⟨by decide +kernel, (hselect none rfl).2 .recorder rfl⟩

end Stubsmith.Registry
