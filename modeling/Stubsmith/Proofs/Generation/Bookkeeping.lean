import Mathlib.Data.List.Basic
import Stubsmith.Generation.Report

/-!
# The books of a report

A report is filled one outcome at a time. The counts, the lists by status and the failures are computed separately from
its outcomes; they agree with each other, and between them no outcome is lost or listed twice.
-/
namespace Stubsmith.Generation

variable {s : Status} {ss : List Status} {c : Status × Nat} {cs : List (Status × Nat)} {o : Outcome}

/-- The statuses that are counted. -/
def keys (cs : List (Status × Nat)) : List Status := cs.map Prod.fst

@[simp] lemma keys_cons (c : Status × Nat) (cs : List (Status × Nat)) : keys (c :: cs) = c.1 :: keys cs := rfl

/-- All counts together. -/
def grandTotal (cs : List (Status × Nat)) : Nat := cs.foldr (fun c n => c.2 + n) 0

/-- The counts of a sequence of statuses: each status that occurs is a key, the keys stand in the order in which the
statuses first occur, and each has the number of its occurrences. -/
structure Tally (ss : List Status) (cs : List (Status × Nat)) : Prop where
  mem_keys : ∀ s, s ∈ keys cs ↔ s ∈ ss
  firstSeen : (keys cs).Pairwise fun s t => ss.idxOf s < ss.idxOf t
  count_eq : ∀ c ∈ cs, c.2 = ss.count c.1
  grandTotal_eq : grandTotal cs = ss.length

lemma Tally.nodup (h : Tally ss cs) : (keys cs).Nodup := by
  refine h.firstSeen.imp ?_
  rintro s t hlt rfl
  exact absurd hlt (Nat.lt_irrefl _)

lemma keys_countOne (s : Status) (cs : List (Status × Nat)) :
    keys (countOne s cs) = if s ∈ keys cs then keys cs else keys cs ++ [s] := by
  induction cs with
  | nil => rfl
  | cons d cs ih =>
    rw [countOne]
    by_cases hd : d.1 = s
    · simp [hd]
    · rw [if_neg hd, keys_cons, keys_cons, ih]
      by_cases hs : s ∈ keys cs <;> simp [hs, Ne.symm hd]

/-- A count is either left as it was or the one that has grown. -/
lemma mem_countOne (hnodup : (keys cs).Nodup) (hc : c ∈ countOne s cs) :
    c ∈ cs ∧ c.1 ≠ s ∨ (∃ n, (s, n) ∈ cs ∧ c = (s, n + 1)) ∨ s ∉ keys cs ∧ c = (s, 1) := by
  induction cs with
  | nil => exact Or.inr (Or.inr ⟨List.not_mem_nil, List.mem_singleton.mp hc⟩)
  | cons d cs ih =>
    obtain ⟨hd, hnodup⟩ := List.nodup_cons.mp hnodup
    rw [countOne] at hc
    split_ifs at hc with heq
    · subst heq
      rcases List.mem_cons.mp hc with rfl | hc
      · exact Or.inr (Or.inl ⟨d.2, List.mem_cons_self .., rfl⟩)
      · -- No other count has the key of the one that has grown.
        refine Or.inl ⟨List.mem_cons_of_mem d hc, ?_⟩
        intro hkey
        exact hd (hkey ▸ List.mem_map_of_mem hc)
    · rcases List.mem_cons.mp hc with rfl | hc
      · exact Or.inl ⟨List.mem_cons_self .., heq⟩
      · rcases ih hnodup hc with ⟨hmem, hne⟩ | ⟨n, hmem, rfl⟩ | ⟨hnew, rfl⟩
        · exact Or.inl ⟨List.mem_cons_of_mem d hmem, hne⟩
        · exact Or.inr (Or.inl ⟨n, List.mem_cons_of_mem d hmem, rfl⟩)
        · refine Or.inr (Or.inr ⟨?_, rfl⟩)
          rw [keys_cons, List.mem_cons, not_or]
          exact ⟨Ne.symm heq, hnew⟩

lemma grandTotal_countOne (s : Status) (cs : List (Status × Nat)) :
    grandTotal (countOne s cs) = grandTotal cs + 1 := by
  induction cs with
  | nil => rfl
  | cons d cs ih =>
    rw [countOne]
    split_ifs
    · simp only [grandTotal, List.foldr_cons]
      omega
    · simp only [grandTotal, List.foldr_cons] at ih ⊢
      omega

lemma tally_nil : Tally [] [] where
  mem_keys := fun _ => Iff.rfl
  firstSeen := .nil
  count_eq := List.forall_mem_nil _
  grandTotal_eq := rfl

/-- One more status is counted. -/
lemma Tally.countOne (h : Tally ss cs) (s : Status) : Tally (ss ++ [s]) (countOne s cs) where
  mem_keys := by
    intro t
    rw [keys_countOne, List.mem_append, List.mem_singleton, ← h.mem_keys]
    split_ifs with hs
    · exact ⟨Or.inl, fun ht => ht.elim id (fun heq => heq ▸ hs)⟩
    · rw [List.mem_append, List.mem_singleton]
  firstSeen := by
    have hold : (keys cs).Pairwise fun t u => (ss ++ [s]).idxOf t < (ss ++ [s]).idxOf u := by
      refine h.firstSeen.imp_of_mem ?_
      intro t u ht hu hlt
      rwa [List.idxOf_append_of_mem ((h.mem_keys t).mp ht), List.idxOf_append_of_mem ((h.mem_keys u).mp hu)]
    rw [keys_countOne]
    split_ifs with hs
    · exact hold
    · -- A status that was not there before occurs first at the end.
      refine List.pairwise_append.mpr ⟨hold, List.pairwise_singleton .., ?_⟩
      intro t ht u hu
      rw [h.mem_keys] at hs ht
      rw [List.mem_singleton.mp hu, List.idxOf_append_of_mem ht, List.idxOf_append_of_notMem hs]
      exact Nat.lt_add_right _ (List.idxOf_lt_length_of_mem ht)
  count_eq := by
    intro c hc
    rw [List.count_append]
    rcases mem_countOne h.nodup hc with ⟨hmem, hne⟩ | ⟨n, hmem, rfl⟩ | ⟨hnew, rfl⟩
    · rw [List.count_singleton, if_neg (by simpa using Ne.symm hne), h.count_eq c hmem, Nat.add_zero]
    · rw [List.count_singleton_self, ← h.count_eq _ hmem]
    · rw [h.mem_keys] at hnew
      rw [List.count_singleton_self, List.count_eq_zero_of_not_mem hnew]
  grandTotal_eq := by rw [grandTotal_countOne, h.grandTotal_eq, List.length_append, List.length_singleton]

lemma Tally.foldl (h : Tally ss cs) (os : List Outcome) :
    Tally (ss ++ os.map Outcome.status) (os.foldl (fun cs o => Generation.countOne o.status cs) cs) := by
  induction os generalizing ss cs with
  | nil => rwa [List.map_nil, List.append_nil]
  | cons o os ih =>
    rw [List.map_cons, ← List.singleton_append, ← List.append_assoc]
    exact ih (h.countOne o.status)

namespace Report

lemma tally_counts (r : Report) : Tally (r.outcomes.map Outcome.status) r.counts := tally_nil.foldl r.outcomes

lemma outcomes_foldl_add (r : Report) (os : List Outcome) : (os.foldl add r).outcomes = r.outcomes ++ os := by
  induction os generalizing r with
  | nil => rw [List.foldl_nil, List.append_nil]
  | cons o os ih => rw [List.foldl_cons, ih, add, List.append_assoc, List.singleton_append]

lemma mem_withStatus {r : Report} : o ∈ r.withStatus s ↔ o ∈ r.outcomes ∧ o.status = s := by
  rw [withStatus, List.mem_filter, decide_eq_true_iff]

lemma mem_failed {r : Report} : o ∈ r.failed ↔ o ∈ r.outcomes ∧ o.status.ok = false := by
  rw [failed, List.mem_filter, Bool.not_eq_true', Outcome.ok]

lemma count_withStatus (r : Report) (s : Status) (o : Outcome) :
    (r.withStatus s).count o = if o.status = s then r.outcomes.count o else 0 := by
  split_ifs with hs
  · exact List.count_filter (decide_eq_true hs)
  · exact List.count_eq_zero_of_not_mem fun h => hs (mem_withStatus.mp h).2

lemma count_failed (r : Report) (o : Outcome) :
    r.failed.count o = if o.status.ok then 0 else r.outcomes.count o := by
  split_ifs with hok
  · exact List.count_eq_zero_of_not_mem fun h => Bool.false_ne_true ((mem_failed.mp h).2.symm.trans hok)
  · exact List.count_filter (by simp [Outcome.ok, hok])

lemma length_withStatus (r : Report) (s : Status) :
    (r.withStatus s).length = (r.outcomes.map Outcome.status).count s := by
  rw [withStatus, ← List.countP_eq_length_filter, List.count, List.countP_map]
  exact List.countP_congr fun o _ => by simp

/-- The failures, then the outcomes of each kind that is no failure. -/
def parts (r : Report) : List (List Outcome) :=
  [r.failed, r.withStatus .generated, r.withStatus .existing, r.withStatus .noServices]

lemma perm_parts (r : Report) : r.parts.flatten.Perm r.outcomes := by
  rw [List.perm_iff_count]
  intro o
  simp only [parts, List.flatten_cons, List.flatten_nil, List.count_append, List.count_nil, count_failed,
    count_withStatus]
  cases o.status <;> simp [Status.ok]

lemma disjoint_withStatus (r : Report) {s t : Status} (h : s ≠ t) : (r.withStatus s).Disjoint (r.withStatus t) := by
  intro o hs ht
  exact h ((mem_withStatus.mp hs).2.symm.trans (mem_withStatus.mp ht).2)

lemma disjoint_failed (r : Report) (h : s.ok = true) : r.failed.Disjoint (r.withStatus s) := by
  intro o hfailed hs
  have hok := (mem_failed.mp hfailed).2
  rw [(mem_withStatus.mp hs).2, h] at hok
  cases hok

lemma disjoint_parts (r : Report) : r.parts.Pairwise List.Disjoint := by
  simp only [parts, List.pairwise_cons, List.forall_mem_cons, List.not_mem_nil, false_implies, implies_true, and_true,
    List.Pairwise.nil]
  exact ⟨⟨r.disjoint_failed rfl, r.disjoint_failed rfl, r.disjoint_failed rfl⟩,
    ⟨r.disjoint_withStatus (by decide), r.disjoint_withStatus (by decide)⟩, r.disjoint_withStatus (by decide)⟩

/-- The report keeps the books of the outcomes. -/
structure Balances (r : Report) (os : List Outcome) : Prop where
  /-- Exactly the statuses that occur are counted. -/
  counted : ∀ s, s ∈ keys r.counts ↔ ∃ o ∈ os, o.status = s
  /-- They stand in the order in which they first occur, so each of them once. -/
  firstSeen : (keys r.counts).Pairwise fun s t =>
    (os.map Outcome.status).idxOf s < (os.map Outcome.status).idxOf t
  count : ∀ c ∈ r.counts, c.2 = (r.withStatus c.1).length
  total : r.total = os.length
  grandTotal : grandTotal r.counts = r.total
  /-- The outcomes of a status are listed as often as they occur, and in the order of processing. -/
  listed : ∀ s o, (r.withStatus s).count o = if o.status = s then os.count o else 0
  ordered : ∀ s, (r.withStatus s).Sublist os
  /-- No outcome is lost, and none is in two of the parts. -/
  split : r.parts.flatten.Perm os
  disjoint : r.parts.Pairwise List.Disjoint

/-- A report to which outcomes are added one by one keeps their books. -/
theorem foldl_add_balances (os : List Outcome) : (os.foldl add empty).Balances os := by
  have houtcomes : (os.foldl add empty).outcomes = os := outcomes_foldl_add empty os
  generalize os.foldl add empty = r at houtcomes
  subst houtcomes
  have htally := r.tally_counts
  exact {
    counted := fun s => by rw [htally.mem_keys, List.mem_map]
    firstSeen := htally.firstSeen
    count := fun c hc => by rw [length_withStatus, htally.count_eq c hc]
    total := rfl
    grandTotal := by rw [htally.grandTotal_eq, List.length_map, total]
    listed := r.count_withStatus
    ordered := fun s => List.filter_sublist
    split := r.perm_parts
    disjoint := r.disjoint_parts }

end Report

end Stubsmith.Generation
