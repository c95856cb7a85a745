import Stubsmith.Proofs.Data.Result
import Stubsmith.Service.Extract

/-!
# What is found, in order

A name that is made of characters passes its check, so a service or a method with such a name is described. What is
found in the statements of a file is put together in order: the services depend on what each statement gives and not
on what is said of it, and a view of each is a view of all of them.
-/
namespace Stubsmith.Service

open Text (CodePoint)

section Names

variable {s : String} {request response : List CodePoint} {comments : List (List CodePoint)} {methods : List Method}

lemma checkName_coe (hne : s ≠ "") : checkName s = .ok ⟨s, hne⟩ := by
  simp [checkName, hne]

lemma describeMethod_coe (hne : s ≠ "") :
    describeMethod s request response comments = .ok ⟨s, request, response, comments, hne⟩ := by
  rw [describeMethod, checkName_coe hne]
  rfl

lemma describeService_coe (hne : s ≠ "") : describeService s methods = .ok ⟨s, methods, hne⟩ := by
  rw [describeService, checkName_coe hne]
  rfl

end Names

variable {α β : Type} {xs : List α} {f f' : α → Checked (Option Service) × List LogRecord}
variable {found found' : List (Checked (Option Service) × List LogRecord)}

lemma inOrder_ok {s : Option Service} {log : List LogRecord} : inOrder ((.ok s, log) :: found) =
    ((inOrder found).1.map (s.toList ++ ·), log ++ (inOrder found).2) := rfl

lemma inOrder_none : inOrder ((.ok none, []) :: found) = inOrder found := by
  rw [inOrder_ok]
  cases inOrder found with
  | mk services log => cases services <;> rfl

/-- The services depend on what is given alone. -/
lemma inOrder_congr (h : found.map Prod.fst = found'.map Prod.fst) : (inOrder found).1 = (inOrder found').1 := by
  induction found generalizing found' with
  | nil =>
    rw [List.map_nil, eq_comm, List.map_eq_nil_iff] at h
    rw [h]
  | cons x found ih =>
    obtain ⟨x', rest, rfl, hx, hrest⟩ := List.map_eq_cons_iff.mp h.symm
    obtain ⟨given, log⟩ := x
    obtain ⟨given', log'⟩ := x'
    obtain rfl : given' = given := hx
    cases given' with
    | error issues => rfl
    | ok s => rw [inOrder_ok, inOrder_ok, ih hrest.symm]

/-- A view of each is a view of all of them. -/
lemma inOrder_map {g : Service → Service} (h : ∀ x ∈ xs, (f' x).1 = (f x).1.map (Option.map g)) :
    (inOrder (xs.map f')).1 = (inOrder (xs.map f)).1.map (List.map g) := by
  induction xs with
  | nil => rfl
  | cons x xs ih =>
    rw [List.forall_mem_cons] at h
    obtain ⟨hx, hxs⟩ := h
    rw [List.map_cons, List.map_cons]
    generalize f x = y at hx
    generalize f' x = y' at hx
    obtain ⟨given, log⟩ := y
    obtain ⟨given', log'⟩ := y'
    obtain rfl : given' = given.map (Option.map g) := hx
    cases given with
    | error issues => rfl
    | ok s =>
      rw [Except.map, inOrder_ok, inOrder_ok, ih hxs, map_map_result, map_map_result]
      cases s <;> rfl

/-- If each of them is a service, all services are found, with what is said of each. -/
lemma inOrder_view {view : Service → β} {shown : α → β}
    (h : ∀ x ∈ xs, (f x).1.map (Option.map view) = .ok (some (shown x))) :
    (inOrder (xs.map f)).1.map (List.map view) = .ok (xs.map shown) ∧
      (inOrder (xs.map f)).2 = xs.flatMap fun x => (f x).2 := by
  induction xs with
  | nil => exact ⟨rfl, rfl⟩
  | cons x xs ih =>
    rw [List.forall_mem_cons] at h
    obtain ⟨given, hgiven, hview⟩ := exists_of_map_eq_ok h.1
    obtain ⟨s, rfl, hs⟩ := Option.map_eq_some_iff.mp hview.symm
    obtain ⟨hservices, hlog⟩ := ih h.2
    obtain ⟨ss, hss, hviews⟩ := exists_of_map_eq_ok hservices
    have hpair : f x = (.ok (some s), (f x).2) := by rw [← hgiven]
    rw [List.map_cons, hpair, inOrder_ok, hss, hlog]
    simp [Except.map, hs, hviews]

/-- What is found first comes before what is found later. -/
lemma inOrder_append {ss ts : List Service} (h : (inOrder found).1 = .ok ss) (h' : (inOrder found').1 = .ok ts) :
    (inOrder (found ++ found')).1 = .ok (ss ++ ts) := by
  induction found generalizing ss with
  | nil =>
    cases h
    exact h'
  | cons x found ih =>
    obtain ⟨given, log⟩ := x
    cases given with
    | error issues => cases h
    | ok s =>
      rw [inOrder_ok] at h
      obtain ⟨rest, hrest, rfl⟩ := exists_of_map_eq_ok h
      rw [List.cons_append, inOrder_ok, ih hrest, List.append_assoc]
      rfl

end Stubsmith.Service
