import Stubsmith.Proofs.Proto.Lexeme
import Stubsmith.Proofs.Proto.Shape
import Stubsmith.Proto.Parse

/-!
# Stages of a rule

While a node is being read, what may still come is one of finitely many shapes, the stages of its rule.
The facts about the grammar that reading relies on are checked here stage by stage: one terminal begins
at most one of the pieces that may come, what can follow a piece is offered behind it, and a word or a
name is mistaken for a keyword only behind a closing brace or an opening parenthesis.
-/
namespace Stubsmith.Proto

/-- The shapes met on the way from those in `todo`, with those already seen. -/
def Shape.explore : (steps : Nat) → (seen todo : List Shape) → List Shape
  | 0, seen, _ => seen
  | _ + 1, seen, [] => seen
  | n + 1, seen, s :: todo =>
    if s ∈ seen then explore n seen todo
    else explore n (s :: seen) (s.firsts.map (s.after ·) ++ todo)

/-- What may still come in a node of the rule, at its beginning and after each piece. -/
def Rule.stages (r : Rule) : List Shape := Shape.explore 40 [] [r.shape]

/-- The keywords that can stand behind a closing brace. -/
def Keyword.openers : List Keyword :=
  [kwEdition, kwEnum, kwExtend, kwImport, kwMessage, kwOption, kwPackage, kwService, kwSyntax, kwRpc]

/-- The terminals that are offered at a stage of a rule. -/
def Rule.offerAt (r : Rule) (s : Shape) : Offer := (⟨r, s, []⟩ : Frame).offer

lemma Frame.offer_eq (f : Frame) : f.offer = f.rule.offerAt f.rest := rfl

section Checks

lemma check_stages : ∀ r ∈ Rule.all, r.shape ∈ r.stages ∧ ∀ s ∈ r.stages, ∀ p ∈ s.firsts,
    s.after p ∈ r.stages ∧ p ≠ .rule .file ∧
      ∀ t ∈ Terminal.all, p.begins t = true → s.choose t = some p := by decide +kernel

lemma check_starts : ∀ r ∈ Rule.all, r ≠ .file → r.shape.nullable = false ∧ ∀ t ∈ Terminal.all,
    (r.shape.choose t).isSome = true → r.starts.contains t = true ∧ t ≠ .word ∧
      (r.shape.choose t = some (.token t) ∨
        ∃ q ∈ Rule.all, r.shape.choose t = some (.rule q) ∧ q.shape.choose t = some (.token t)) := by
  decide +kernel

lemma check_behind : ∀ r ∈ Rule.all, ∀ s ∈ r.stages, ∀ q ∈ Rule.all, .rule q ∈ s.firsts →
    (s.after (.rule q)).choose .dot = none ∧
    (∀ t ∈ Terminal.all, ((s.after (.rule q)).choose t).isSome = true → t ∈ q.follows) ∧
    ((s.after (.rule q)).nullable = true → ∀ t ∈ r.follows, t ∈ q.follows) := by decide +kernel

lemma check_offers : ∀ r ∈ Rule.all, ∀ s ∈ r.stages, (r.offerAt s).Tidy ∧
    (s.nullable = true → (∀ t ∈ r.follows, r.offerAt s t = true) ∧
      (r ≠ .file → ∀ t ∈ Terminal.all, t ≠ .dot → s.choose t = none)) ∧
    ((s.choose .word).isSome = true →
      s.nullable = false ∧ ∀ k ∈ Keyword.all, s.choose (.keyword k) = none) := by decide +kernel

lemma check_start : Rule.file.offerAt Rule.file.shape .ident = false ∧
    Rule.file.offerAt Rule.file.shape .word = false := by decide

lemma check_keywords : ∀ r ∈ Rule.all, ∀ s ∈ r.stages, ∀ t ∈ Terminal.all, .token t ∈ s.firsts →
    ∀ k ∈ Keyword.all,
      (r.offerAt (s.after (.token t)) .ident = true →
        r.offerAt (s.after (.token t)) (.keyword k) = true → k = .kwStream ∧ t = .openParen) ∧
      (r.offerAt (s.after (.token t)) .word = true →
        (r.offerAt (s.after (.token t)) (.keyword k) = true ↔ t = .closeBrace ∧ k ∈ Keyword.openers)) := by
  decide +kernel

end Checks

end Stubsmith.Proto
