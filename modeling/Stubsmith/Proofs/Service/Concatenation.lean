import Stubsmith.Proofs.Proto.Gluing
import Stubsmith.Proofs.Service.Declaration
import Stubsmith.Proofs.Service.Lines

/-!
# The services of two texts

Two texts one behind the other declare the services of the first and then those of the second, wherever the two
are accepted together. The lines of the second are counted on, and extraction does not look at them.
-/
namespace Stubsmith.Proto.Node

variable {d : Nat}

mutual

/-- A lowered tree differs in its lines alone. -/
theorem unlined_lowered : ∀ n : Node, (n.lowered d).unlined = n.unlined
  | mk k v l cs => by rw [lowered, unlined, unlined, unlinedAll_lowered cs]

theorem unlinedAll_lowered : ∀ ns : List Node, unlinedAll (loweredAll d ns) = unlinedAll ns
  | [] => rfl
  | n :: ns => by rw [loweredAll, unlinedAll, unlinedAll, unlined_lowered n, unlinedAll_lowered ns]

end

end Stubsmith.Proto.Node

namespace Stubsmith.Service

open Proto (Node parse Glued)

variable {n : Node} {d : Nat}

lemma readStatement_lowered : (readStatement (n.lowered d)).1 = (readStatement n).1 :=
  readStatement_congr (Node.unlined_lowered n)

/-- The services of a tree whose statements are those of two trees. -/
lemma extract_append {s t u : Node} {ss ts : List Service}
    (h : u.children = s.children ++ t.children.map (Node.lowered d)) (hs : (extract s).1 = .ok ss)
    (ht : (extract t).1 = .ok ts) : (extract u).1 = .ok (ss ++ ts) := by
  have hgiven : (extract u).1 = (inOrder (s.children.map readStatement ++ t.children.map readStatement)).1 := by
    refine inOrder_congr ?_
    simp only [h, List.map_append, List.map_map, Function.comp_def, readStatement_lowered]
  exact hgiven.trans (inOrder_append hs ht)

/-- Two accepted texts with a line end between them. If the first ends with a message, an enumeration or an
extension and the second begins with a word that is no keyword, they are refused. Otherwise they are accepted,
the statements of the second come behind those of the first, with their lines counted on, and so do the
services. -/
theorem texts_compose {a b : String} {s t : Node} (ha : parse a = .ok s) (hb : parse b = .ok t) :
    (¬ (s.EndsInBlock ∧ Glued b.toList) → ∃ u ss ts, parse (a ++ "\n" ++ b) = .ok u ∧
        u.children = s.children ++ t.children.map (Node.lowered (1 + a.toList.count '\n')) ∧
        (extract s).1 = .ok ss ∧ (extract t).1 = .ok ts ∧ (extract u).1 = .ok (ss ++ ts)) ∧
      (s.EndsInBlock ∧ Glued b.toList → ∃ e, parse (a ++ "\n" ++ b) = .error e) := by
  rw [Nat.add_comm 1]
  obtain ⟨hok, herror⟩ := Proto.parse_append ha hb
  refine ⟨fun hfree => ?_, herror⟩
  obtain ⟨u, hu, hchildren⟩ := hok hfree
  obtain ⟨ss, hss⟩ := exists_extract ha
  obtain ⟨ts, hts⟩ := exists_extract hb
  exact ⟨u, ss, ts, hu, hchildren, hss, hts, extract_append hchildren hss hts⟩

/-- A comment and a message. -/
def notedMessage : String := "// M\nmessage M \x7b x y \x7d"

def plainService : String := "service S\x7b\n//r\nrpc R(A)returns(B);\x7d"

/-- A service whose keyword and name are one word. -/
def gluedService : String := "serviceS\x7b\x7d"

/-- Behind a message a service is read if its keyword stands alone. -/
theorem notedMessage_compose : ∃ s t u services, parse notedMessage = .ok s ∧ parse plainService = .ok t ∧
    parse (notedMessage ++ "\n" ++ plainService) = .ok u ∧
    u.children = s.children ++ t.children.map (Node.lowered 2) ∧ (extract s).1 = .ok [] ∧
    (extract u).1 = .ok services ∧ services.map (·.name) = ["S"] := by
  have hmessage : ((parse notedMessage).toOption.bind fun s => (extract s).1.toOption.map (List.map (·.name))) =
      some [] := by decide +kernel
  have hservice : ((parse plainService).toOption.bind fun t => (extract t).1.toOption.map (List.map (·.name))) =
      some ["S"] := by decide +kernel
  have hplain : ¬ Glued plainService.toList := by decide +kernel
  have hlines : 1 + notedMessage.toList.count '\n' = 2 := by decide +kernel
  obtain ⟨s, hs, hfirst⟩ := Option.bind_eq_some_iff.mp hmessage
  obtain ⟨t, ht, hsecond⟩ := Option.bind_eq_some_iff.mp hservice
  obtain ⟨none, hnone, hempty⟩ := Option.map_eq_some_iff.mp hfirst
  obtain ⟨services, hservices, hnames⟩ := Option.map_eq_some_iff.mp hsecond
  obtain rfl := List.map_eq_nil_iff.mp hempty
  have hs := eq_ok_of_toOption hs
  have ht := eq_ok_of_toOption ht
  obtain ⟨u, ss, ts, hu, hchildren, hss, hts, hextract⟩ := (texts_compose hs ht).1 fun h => hplain h.2
  cases hss.symm.trans (eq_ok_of_toOption hnone)
  cases hts.symm.trans (eq_ok_of_toOption hservices)
  rw [hlines] at hchildren
  exact ⟨s, t, u, services, hs, ht, hu, hchildren, hss, hextract, hnames⟩

/-- Behind a message the glued service is refused. Alone it is accepted. -/
theorem notedMessage_refuses_glued : (parse notedMessage).isOk = true ∧ (parse gluedService).isOk = true ∧
    (parse (notedMessage ++ "\n" ++ gluedService)).isOk = false := by decide +kernel

end Stubsmith.Service
