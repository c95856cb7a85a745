import Mathlib.Tactic.Common
import Stubsmith.Proto.Grammar

/-!
# Shapes as languages

`Shape.Matches` says which sequences of pieces a shape describes. Here the functions on shapes are
tied to it: `nullable` decides the empty sequence, `after` is the derivative by one piece, `firsts`
holds every piece that can come first, `pieces` every piece at all, and `choose` finds the piece that a
terminal begins.
-/
namespace Stubsmith.Proto

namespace Shape

@[simp] theorem not_matches_never (u : List Piece) : ¬ Matches never u := by
  intro h
  cases h

@[simp] theorem matches_empty {u : List Piece} : Matches empty u ↔ u = [] := by
  constructor
  · intro h
    cases h
    rfl
  · rintro rfl
    exact .empty

@[simp] theorem matches_piece {p : Piece} {u : List Piece} : Matches (piece p) u ↔ u = [p] := by
  constructor
  · intro h
    cases h
    rfl
  · rintro rfl
    exact .piece p

theorem matches_seq {a b : Shape} {w : List Piece} :
    Matches (seq a b) w ↔ ∃ u v, w = u ++ v ∧ Matches a u ∧ Matches b v := by
  constructor
  · intro h
    cases h with
    | seq ha hb => exact ⟨_, _, rfl, ha, hb⟩
  · rintro ⟨u, v, rfl, ha, hb⟩
    exact .seq ha hb

@[simp] theorem matches_alt {a b : Shape} {u : List Piece} :
    Matches (alt a b) u ↔ Matches a u ∨ Matches b u := by
  constructor
  · intro h
    cases h with
    | altLeft ha => exact Or.inl ha
    | altRight hb => exact Or.inr hb
  · rintro (ha | hb)
    · exact .altLeft ha
    · exact .altRight hb

/-- The first repetition of a nonempty sequence can be taken to be nonempty. -/
theorem matches_many_cons {a : Shape} {p : Piece} {w : List Piece} :
    Matches (many a) (p :: w) ↔
      ∃ u v, w = u ++ v ∧ Matches a (p :: u) ∧ Matches (many a) v := by
  constructor
  · intro h
    generalize hs : many a = s at h
    generalize hx : p :: w = x at h
    induction h with
    | manyNil => cases hx
    | @manyCons b u v hu hv _ ih =>
      cases hs
      cases u with
      | nil => exact ih rfl hx
      | cons q u =>
        simp only [List.cons_append, List.cons.injEq] at hx
        obtain ⟨rfl, rfl⟩ := hx
        exact ⟨u, v, rfl, hu, hv⟩
    | empty => cases hs
    | piece => cases hs
    | seq => cases hs
    | altLeft => cases hs
    | altRight => cases hs
  · rintro ⟨u, v, rfl, hu, hv⟩
    exact .manyCons hu hv

theorem matches_nil {s : Shape} : Matches s [] ↔ s.nullable = true := by
  induction s with
  | never => simp [nullable]
  | empty => simp [nullable]
  | piece p => simp [nullable]
  | seq a b ha hb =>
    simp only [matches_seq, nullable, Bool.and_eq_true, ← ha, ← hb]
    constructor
    · rintro ⟨u, v, huv, hu, hv⟩
      obtain ⟨rfl, rfl⟩ := List.append_eq_nil_iff.mp huv.symm
      exact ⟨hu, hv⟩
    · rintro ⟨hu, hv⟩
      exact ⟨[], [], rfl, hu, hv⟩
  | alt a b ha hb => simp [nullable, ha, hb]
  | many a _ => exact ⟨fun _ => rfl, fun _ => .manyNil⟩

theorem matches_followedBy {a b : Shape} {w : List Piece} :
    Matches (a.followedBy b) w ↔ Matches (seq a b) w := by
  unfold followedBy
  split
  · simp [matches_seq]
  · simp [matches_seq]
  · rfl

theorem matches_orElse {a b : Shape} {w : List Piece} :
    Matches (a.orElse b) w ↔ Matches a w ∨ Matches b w := by
  unfold orElse
  split
  · simp
  · simp
  · simp

/-- What may come after a piece is the derivative of the language by that piece. -/
theorem matches_after {p : Piece} {s : Shape} {u : List Piece} :
    Matches (s.after p) u ↔ Matches s (p :: u) := by
  induction s generalizing u with
  | never => simp [after]
  | empty => simp [after]
  | piece q =>
    unfold after
    split_ifs with h
    · simp [h]
    · simp [Ne.symm h]
  | seq a b ha hb =>
    simp only [after, matches_orElse, matches_followedBy, matches_seq]
    constructor
    · rintro (⟨v, w, rfl, hv, hw⟩ | h)
      · exact ⟨p :: v, w, rfl, ha.mp hv, hw⟩
      · split_ifs at h with hn
        · exact ⟨[], p :: u, rfl, matches_nil.mpr hn, hb.mp h⟩
        · simp at h
    · rintro ⟨v, w, hvw, hv, hw⟩
      cases v with
      | nil =>
        right
        rw [if_pos (matches_nil.mp hv)]
        rw [List.nil_append] at hvw
        exact hb.mpr (hvw ▸ hw)
      | cons q v =>
        simp only [List.cons_append, List.cons.injEq] at hvw
        obtain ⟨rfl, rfl⟩ := hvw
        exact Or.inl ⟨v, w, rfl, ha.mpr hv, hw⟩
  | alt a b ha hb => simp [after, matches_orElse, ha, hb]
  | many a ha =>
    simp only [after, matches_followedBy, matches_seq, matches_many_cons, ha]

/-- The derivative by a whole sequence of pieces. -/
theorem matches_foldl_after {s : Shape} {u v : List Piece} :
    Matches (u.foldl (fun t p => t.after p) s) v ↔ Matches s (u ++ v) := by
  induction u generalizing s with
  | nil => rfl
  | cons p u ih => rw [List.foldl_cons, ih, matches_after, List.cons_append]

/-- A sequence is described if nothing more has to come after its last piece. -/
theorem matches_iff {s : Shape} {u : List Piece} :
    Matches s u ↔ (u.foldl (fun t p => t.after p) s).nullable = true := by
  rw [← matches_nil, matches_foldl_after, List.append_nil]

theorem mem_firsts {p : Piece} {s : Shape} {u : List Piece} (h : Matches s (p :: u)) :
    p ∈ s.firsts := by
  induction s generalizing u with
  | never => simp at h
  | empty => simp at h
  | piece q => simp_all [firsts]
  | seq a b ha hb =>
    obtain ⟨v, w, hvw, hv, hw⟩ := matches_seq.mp h
    cases v with
    | nil =>
      have hn := matches_nil.mp hv
      rw [List.nil_append] at hvw
      have hp := hb (hvw ▸ hw)
      simp [firsts, hn, hp]
    | cons q v =>
      simp only [List.cons_append, List.cons.injEq] at hvw
      obtain ⟨rfl, rfl⟩ := hvw
      have hp := ha hv
      unfold firsts
      split_ifs
      · exact List.mem_append_left _ hp
      · exact hp
  | alt a b ha hb =>
    rcases matches_alt.mp h with h | h
    · exact List.mem_append_left _ (ha h)
    · exact List.mem_append_right _ (hb h)
  | many a ha =>
    obtain ⟨v, w, -, hv, -⟩ := matches_many_cons.mp h
    exact ha hv

/-- The pieces that stand in a shape. -/
def pieces : Shape → List Piece
  | never => []
  | empty => []
  | piece p => [p]
  | seq a b => a.pieces ++ b.pieces
  | alt a b => a.pieces ++ b.pieces
  | many a => a.pieces

theorem mem_pieces {p : Piece} {s : Shape} {u : List Piece} (h : Matches s u) (hp : p ∈ u) :
    p ∈ s.pieces := by
  induction h with
  | empty => cases hp
  | piece q => exact hp
  | seq _ _ iha ihb =>
    rcases List.mem_append.mp hp with hp | hp
    · exact List.mem_append_left _ (iha hp)
    · exact List.mem_append_right _ (ihb hp)
  | altLeft _ ih => exact List.mem_append_left _ (ih hp)
  | altRight _ ih => exact List.mem_append_right _ (ih hp)
  | manyNil => cases hp
  | manyCons _ _ iha ihb =>
    rcases List.mem_append.mp hp with hp | hp
    · exact iha hp
    · exact ihb hp

end Shape

namespace Rule

def all : List Rule :=
  [file, syntaxDecl, editionDecl, importDecl, packageDecl, optionDecl, emptyDecl, definition,
    messageDef, enumDef, extendDef, serviceDef, serviceName, method, methodName, messageType,
    dottedName, block]

theorem mem_all (r : Rule) : r ∈ all := by cases r <;> decide

end Rule

end Stubsmith.Proto
