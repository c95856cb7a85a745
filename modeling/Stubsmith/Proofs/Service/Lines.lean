import Stubsmith.Proofs.Proto.Derivation
import Stubsmith.Proofs.Service.Findings

/-!
# Extraction and line numbers

Line numbers appear in the messages of extraction and nowhere else: trees that differ in their lines alone
have the same services.
-/
namespace Stubsmith.Proto.Node

variable {n : Node}

@[simp] lemma children_unlined : n.unlined.children = n.children.map unlined := by
  cases n
  rw [unlined, unlinedAll_eq, children, children]

@[simp] lemma hasChildren_unlined : n.unlined.hasChildren = n.hasChildren := by
  simp [hasChildren]

@[simp] lemma isComment_unlined : n.unlined.isComment = n.isComment := by
  simp [isComment]

mutual

@[simp] theorem text_unlined : ∀ n : Node, n.unlined.text = n.text
  | mk k v l [] => by
    have hcomment : (mk k v none []).isComment = (mk k v l []).isComment := rfl
    rw [unlined, unlinedAll, text, text, hcomment]
  | mk k v l (c :: cs) => by rw [unlined, unlinedAll, text, text, text_unlined c, textAll_unlined cs]

theorem textAll_unlined : ∀ ns : List Node, textAll (unlinedAll ns) = textAll ns
  | [] => rfl
  | n :: ns => by rw [unlinedAll, textAll, textAll, text_unlined n, textAll_unlined ns]

end

end Stubsmith.Proto.Node

namespace Stubsmith.Service

open Proto (Node)
open Text (CodePoint)

variable {n m : Node}

@[simp] lemma slotText_unlined (i : Nat) : slotText n.unlined i = slotText n i := by
  simp [slotText, Function.comp_def]

lemma slotFlaw_unlined (slot : Nat × String) : slotFlaw n.unlined slot = slotFlaw n slot := by
  unfold slotFlaw
  rw [Node.children_unlined, List.getElem?_map]
  cases n.children[slot.1]? with
  | none => rfl
  | some c => simp

lemma readMethod_unlined (comments : List (List CodePoint)) : readMethod n.unlined comments = readMethod n comments := by
  have hflaw : slotsFlaw n.unlined = slotsFlaw n := by rw [slotsFlaw, slotsFlaw, funext slotFlaw_unlined]
  simp only [readMethod, hflaw, slotText_unlined]

lemma readElements_unlined (name : List CodePoint) (waiting : List (List CodePoint)) (ns : List Node) :
    (readElements name waiting (ns.map Node.unlined)).1 = (readElements name waiting ns).1 := by
  induction ns generalizing waiting with
  | nil => rfl
  | cons n ns ih =>
    rw [List.map_cons, readElements, readElements]
    simp only [Node.hasChildren_unlined, Node.isComment_unlined, Node.value_unlined, Node.kind_unlined,
      readMethod_unlined]
    split_ifs
    · exact ih _
    · exact ih _
    · exact ih _
    · cases readMethod n waiting with
      | error flaw => exact ih _
      | ok m =>
        cases m with
        | error issues => rfl
        | ok m => exact congrArg (Except.map (m :: ·)) (ih _)

lemma readEntity_unlined : (readEntity n.unlined).1 = (readEntity n).1 := by
  unfold readEntity
  simp only [slotText_unlined, Node.children_unlined, ← List.map_drop]
  split_ifs
  · rfl
  · rfl
  · simp only [readElements_unlined]

lemma readStatement_unlined : (readStatement n.unlined).1 = (readStatement n).1 := by
  unfold readStatement
  rw [Node.children_unlined]
  cases n.children with
  | nil => rfl
  | cons e es =>
    simp only [List.map_cons, Node.hasChildren_unlined]
    split_ifs
    · exact readEntity_unlined
    · rfl

/-- Statements that differ in their lines alone declare the same service. -/
lemma readStatement_congr (h : n.unlined = m.unlined) : (readStatement n).1 = (readStatement m).1 := by
  rw [← @readStatement_unlined n, h, readStatement_unlined]

/-- Trees that differ in their lines alone have the same services. -/
lemma extract_congr (h : n.unlined = m.unlined) : (extract n).1 = (extract m).1 := by
  have hunlined : ∀ n : Node, (extract n.unlined).1 = (extract n).1 := by
    intro n
    refine inOrder_congr ?_
    simp only [Node.children_unlined, List.map_map, Function.comp_def, readStatement_unlined]
  rw [← hunlined n, h, hunlined]

end Stubsmith.Service
