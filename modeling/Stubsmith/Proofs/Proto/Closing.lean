import Stubsmith.Proofs.Proto.Reading
import Stubsmith.Proofs.Proto.Building

/-!
# Stacks at the end of a file

Where a file may end, all open nodes may be closed. The next token then closes them, and is taken as it would
be taken behind the closed statements. What is offered there depends on the innermost node: words are offered
if it is the block of a message, an enumeration or an extension, and nowhere else.
-/
namespace Stubsmith.Proto

open Proto.Frame (opening)

variable {f p : Frame} {below : List Frame} {t : Token} {s : Shape}

/-- The open nodes of a file: each is at a stage of its rule and may come next in the one around it. -/
inductive Nested : Frame → List Frame → Prop
  | root {f : Frame} : f.rule = .file → f.rest = Rule.file.shape → Nested f []
  | inner {f p : Frame} {ps : List Frame} : f.rule ≠ .file → f.rest ∈ f.rule.stages →
      .rule f.rule ∈ p.rest.firsts → Nested p ps → Nested f (p :: ps)

namespace Nested

lemma stage (h : Nested f below) : f.rest ∈ f.rule.stages := by
  cases h with
  | root hr hs =>
    rw [hr, hs]
    exact (check_stages .file (Rule.mem_all _)).1
  | inner _ hs _ _ => exact hs

lemma check_root : ∀ q ∈ Rule.file.shape.firsts, Rule.file.shape.after q = Rule.file.shape := by
  decide +kernel

/-- A node that takes what may come next is still open. -/
lemma push {c : Tree} (h : Nested f below) (hc : c.piece ∈ f.rest.firsts) : Nested (f.push c) below := by
  have hstage := ((check_stages f.rule (Rule.mem_all _)).2 f.rest h.stage _ hc).1
  cases h with
  | root hr hs =>
    refine .root hr ?_
    rw [hs] at hc
    show f.rest.after c.piece = _
    rw [hs, check_root _ hc]
  | inner hr _ hp hps => exact .inner hr hstage hp hps

lemma close (h : Nested f (p :: below)) : Nested (p.push f.tree) below := by
  cases h with
  | inner _ _ hp hps => exact hps.push hp

/-- The frames down to a token are nested, and the innermost is right behind the token. -/
lemma enter {g : Frame} {gs : List Frame} {depth : Nat} (h : Nested f below)
    (he : f.enter? t depth = some (g :: gs)) : Nested g (gs ++ below) ∧ g.Behind (some t) := by
  induction depth generalizing f g gs below with
  | zero =>
    rcases Frame.enter?_eq_some he with ⟨hfirst, hgs⟩ | ⟨r, d, hs, hd, -⟩
    · cases hgs
      exact ⟨h.push hfirst, f.rest, h.stage, hfirst, rfl⟩
    · cases hd
  | succ depth ih =>
    rcases Frame.enter?_eq_some he with ⟨hfirst, hgs⟩ | ⟨r, d, hs, hd, hfirst, hin, hgs⟩
    · cases hgs
      exact ⟨h.push hfirst, f.rest, h.stage, hfirst, rfl⟩
    · cases hd
      have hne : r ≠ .file := fun hfile =>
        ((check_stages f.rule (Rule.mem_all _)).2 f.rest h.stage _ hfirst).2.1 (congrArg Piece.rule hfile)
      have hopen : Nested (opening r) (f :: below) :=
        .inner hne (check_stages r (Rule.mem_all r)).1 hfirst h
      cases hs with
      | nil =>
        rcases Frame.enter?_eq_some hin with ⟨-, hnil⟩ | ⟨_, _, ls, _, _, _, hnil⟩
        · cases hnil
        · simp at hnil
      | cons g' gs' =>
        obtain ⟨rfl, rfl⟩ := List.cons.inj hgs
        simpa using ih hopen hin

lemma shiftInto {s : Stack} (h : Nested f below) (hs : Stack.shiftInto t f below = some s) :
    Nested s.top s.below ∧ s.top.Behind (some t) := by
  induction below generalizing f with
  | nil =>
    rcases Stack.shiftInto_eq_some hs with ⟨g, gs, he, rfl⟩ | ⟨p, ps, hp, -, -⟩
    · exact h.enter he
    · cases hp
  | cons p ps ih =>
    rcases Stack.shiftInto_eq_some hs with ⟨g, gs, he, rfl⟩ | ⟨q, qs, hp, -, hs'⟩
    · exact h.enter he
    · cases hp
      exact ih h.close hs'

end Nested

/-- The open nodes after some tokens. -/
lemma nested_shiftAll {s : Stack} {ts : List Token}
    (h : ts.foldlM Stack.shift? ⟨opening .file, []⟩ = some s) :
    Nested s.top s.below ∧ s.top.Behind ts.getLast? := by
  induction ts using List.reverseRecOn generalizing s with
  | nil =>
    cases h
    exact ⟨.root rfl rfl, rfl, rfl⟩
  | append_singleton ts t ih =>
    rw [List.foldlM_append] at h
    obtain ⟨s', hs', ht⟩ := Option.bind_eq_some_iff.mp h
    rw [List.foldlM_cons] at ht
    obtain ⟨s'', hs'', hnil⟩ := Option.bind_eq_some_iff.mp ht
    cases hnil
    rw [List.getLast?_append, List.getLast?_singleton, Option.some_or]
    exact (ih hs').1.shiftInto hs''

/-- The rules of the nodes with which a file can end. -/
def Rule.spine : List Rule :=
  [file, syntaxDecl, editionDecl, importDecl, packageDecl, optionDecl, emptyDecl, definition, messageDef,
    enumDef, extendDef, serviceDef, block]

/-- The rules of the statements that end with a block. -/
def Rule.blocked : List Rule := [messageDef, enumDef, extendDef]

section Checks

lemma check_spine : ∀ r ∈ Rule.spine, ∀ s ∈ r.stages, ∀ q ∈ Rule.all, .rule q ∈ s.firsts →
    (s.after (.rule q)).nullable = true → q ∈ Rule.spine ∧ (q = .definition → r = .file) ∧
      (q ∈ Rule.blocked → r = .definition) ∧ (q = .block → r ∈ Rule.blocked) ∧
      (r = .file ∨ r = .definition ∨ q = .block) := by decide +kernel

lemma check_ends : ∀ r ∈ Rule.spine, ∀ s ∈ r.stages, s.nullable = true → r.offerAt s .ident = false ∧
    (∀ k ∈ Rule.statementStarts, r.offerAt s k = true) ∧ (r.offerAt s .word = true ↔ r = .block) := by
  decide +kernel

lemma check_last : ∀ r ∈ [Rule.file, .definition, .messageDef, .enumDef, .extendDef], ∀ s ∈ r.stages,
    ∀ k ∈ Terminal.all, .token k ∈ s.firsts → (s.after (.token k)).nullable = false := by decide +kernel

end Checks

/-- The last of the statements ends with a block. -/
def EndsInBlock (items : List Tree) : Prop :=
  ∃ cs d r, items.getLast? = some (.node .definition cs) ∧ cs.getLast? = some d ∧ d.piece = .rule r ∧
    r ∈ Rule.blocked

namespace Stack

lemma closeInto_nullable {tree : Tree} (h : closeInto f below = some tree) : f.rest.nullable = true := by
  cases below with
  | nil =>
    rw [closeInto] at h
    split_ifs at h with hn
    exact hn
  | cons p ps =>
    rw [closeInto] at h
    split_ifs at h with hn
    exact hn

lemma closeInto_nil {tree : Tree} (h : closeInto f [] = some tree) : tree = f.tree := by
  have hn := closeInto_nullable h
  rw [closeInto, if_pos hn] at h
  exact (Option.some.inj h).symm

lemma closeInto_cons {tree : Tree} (h : closeInto f (p :: below) = some tree) :
    closeInto (p.push f.tree) below = some tree := by
  have hn := closeInto_nullable h
  rwa [closeInto, if_pos hn] at h

end Stack

namespace Nested

variable {tree : Tree} {items : List Tree}

lemma eq_nil (h : Nested f below) (hr : f.rule = .file) : below = [] := by
  cases h with
  | root _ _ => rfl
  | inner hne _ _ _ => exact absurd hr hne

lemma exists_around (h : Nested f below) (hr : f.rule ≠ .file) : ∃ p ps, below = p :: ps := by
  cases h with
  | root hfile _ => exact absurd hfile hr
  | inner _ _ _ _ => exact ⟨_, _, rfl⟩

/-- If all open nodes may be closed, the innermost is one with which a file can end. -/
lemma mem_spine (h : Nested f below) (hc : Stack.closeInto f below = some tree) : f.rule ∈ Rule.spine := by
  induction below generalizing f with
  | nil =>
    cases h with
    | root hr _ =>
      rw [hr]
      decide
  | cons p ps ih =>
    have hclosed := Stack.closeInto_cons hc
    have hp : (p.push f.tree).rule ∈ Rule.spine := ih h.close hclosed
    cases h with
    | inner _ _ hfirst hps =>
      exact (check_spine p.rule hp p.rest hps.stage f.rule (Rule.mem_all _) hfirst
        (Stack.closeInto_nullable hclosed)).1

/-- The rules of a node and of the node around it at the end of a file. -/
lemma around (h : Nested f (p :: below)) (hc : Stack.closeInto f (p :: below) = some tree) :
    (f.rule = .definition → p.rule = .file) ∧ (f.rule ∈ Rule.blocked → p.rule = .definition) ∧
      (f.rule = .block → p.rule ∈ Rule.blocked) ∧ (p.rule = .file ∨ p.rule = .definition ∨ f.rule = .block) := by
  have hclosed := Stack.closeInto_cons hc
  have hp : (p.push f.tree).rule ∈ Rule.spine := h.close.mem_spine hclosed
  cases h with
  | inner _ _ hfirst hps =>
    exact (check_spine p.rule hp p.rest hps.stage f.rule (Rule.mem_all _) hfirst
      (Stack.closeInto_nullable hclosed)).2

/-- In a file that is closed, a definition is the last statement. -/
lemma getLast?_of_file (h : Nested f (p :: below)) (hr : p.rule = .file)
    (hc : Stack.closeInto f (p :: below) = some (.node .file items)) : items.getLast? = some f.tree := by
  obtain rfl := h.close.eq_nil hr
  have htree := Stack.closeInto_nil (Stack.closeInto_cons hc)
  simp only [Frame.tree, Frame.push, Tree.node.injEq, List.reverse_cons] at htree
  rw [htree.2, List.getLast?_concat]
  rfl

/-- What is defined last in a file that is closed. -/
lemma getLast?_of_definition (h : Nested f (p :: below)) (hr : p.rule = .definition)
    (hc : Stack.closeInto f (p :: below) = some (.node .file items)) :
    ∃ cs, items.getLast? = some (.node .definition cs) ∧ cs.getLast? = some f.tree := by
  have hclosed := Stack.closeInto_cons hc
  obtain ⟨q, qs, rfl⟩ := h.close.exists_around (by rw [Frame.rule_push, hr]; decide)
  have hq := (h.close.around hclosed).1 hr
  refine ⟨(f.tree :: p.children).reverse, ?_, by rw [List.reverse_cons, List.getLast?_concat]⟩
  rw [h.close.getLast?_of_file hq hclosed, ← hr]
  rfl

/-- At the end of a file the innermost open node is a block if and only if the last statement ends with
one. -/
theorem block_iff (h : Nested f below) (hb : f.Behind (some t))
    (hc : Stack.closeInto f below = some (.node .file items)) : f.rule = .block ↔ EndsInBlock items := by
  have hlast : f.rule ∉ [Rule.file, .definition, .messageDef, .enumDef, .extendDef] := by
    intro hmem
    obtain ⟨s, hs, hfirst, hrest⟩ := hb
    have hfalse := check_last f.rule hmem s hs t.kind (Terminal.mem_all _) hfirst
    rw [← hrest, Stack.closeInto_nullable hc] at hfalse
    cases hfalse
  have hfile : f.rule ≠ .file := fun hr => hlast (by simp [hr])
  obtain ⟨p, ps, rfl⟩ := h.exists_around hfile
  obtain ⟨-, -, hblock, hcases⟩ := h.around hc
  constructor
  · intro hf
    have hp := hblock hf
    have hclosed := Stack.closeInto_cons hc
    obtain ⟨q, qs, rfl⟩ := h.close.exists_around fun hr => by
      rw [show p.rule = .file from hr] at hp
      exact absurd hp (by decide)
    have hq := (h.close.around hclosed).2.1 hp
    obtain ⟨cs, hitem, hd⟩ := h.close.getLast?_of_definition hq hclosed
    exact ⟨cs, _, p.rule, hitem, hd, rfl, hp⟩
  · rintro ⟨cs, d, r, hitem, hd, hr, hmem⟩
    rcases hcases with hp | hp | hf
    · rw [h.getLast?_of_file hp hc] at hitem
      have hrule : f.rule = .definition := (Tree.node.inj (Option.some.inj hitem)).1
      exact absurd (by simp [hrule]) hlast
    · obtain ⟨ds, hitem', hd'⟩ := h.getLast?_of_definition hp hc
      rw [hitem'] at hitem
      obtain rfl := (Tree.node.inj (Option.some.inj hitem)).2
      rw [hd'] at hd
      obtain rfl := Option.some.inj hd
      have hrule : f.rule = r := Piece.rule.inj hr
      rw [← hrule] at hmem
      exact absurd (List.mem_cons_of_mem _ (List.mem_cons_of_mem _ hmem)) hlast
    · exact hf

/-- The next token closes all open nodes and is taken behind the closed statements. -/
theorem pass (h : Nested f below) (hc : Stack.closeInto f below = some (.node .file items))
    (ht : t.kind ≠ .dot) :
    Stack.shiftInto t f below = Stack.shiftInto t ⟨.file, Rule.file.shape, items.reverse⟩ [] := by
  induction below generalizing f with
  | nil =>
    have htree := Stack.closeInto_nil hc
    cases h with
    | root hr hs =>
      obtain ⟨rule, rest, children⟩ := f
      cases hr
      cases hs
      simp only [Frame.tree, Tree.node.injEq, true_and] at htree
      rw [htree, List.reverse_reverse]
      rfl
  | cons p ps ih =>
    have hn := Stack.closeInto_nullable hc
    have hnone : f.rest.choose t.kind = none := by
      cases h with
      | inner hr hs _ _ =>
        exact ((check_offers f.rule (Rule.mem_all _) f.rest hs).2.1 hn).2 hr t.kind (Terminal.mem_all _) ht
    rw [Stack.shiftInto_close hnone hn]
    exact ih h.close (Stack.closeInto_cons hc)

end Nested

end Stubsmith.Proto
