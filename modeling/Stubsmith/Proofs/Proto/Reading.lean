import Stubsmith.Proofs.Proto.Derivation
import Stubsmith.Proofs.Proto.Stage

/-!
# The reader follows a derivation

A stack stands for an open node if it takes every token that can come next as that node would, and
offers it. From such a stack the tokens of a derivation are read one after the other and the tree is
built again, node by node. Only one thing can go wrong: a word right behind a closing brace that spells
a keyword is taken for the keyword, and there the reading ends.
-/
namespace Stubsmith.Proto

/-- The token `b` is a word that, behind the closing brace `a`, is taken for a keyword. -/
def Token.Misread (a b : Token) : Prop :=
  a.kind = .closeBrace ∧ b.kind = .word ∧ ∃ k ∈ Keyword.openers, k.spelling.toList = b.text

/-- The token `b` is a name that, behind the opening parenthesis `a`, is taken for a keyword. -/
def Token.BareStream (a b : Token) : Prop :=
  a.kind = .openParen ∧ b.kind = .ident ∧ b.text = Keyword.kwStream.spelling.toList

/-- The frame is open at the stage that the token `last` leads to, or at the start of a file. -/
def Frame.Behind (f : Frame) : (last : Option Token) → Prop
  | none => f.rule = .file ∧ f.rest = Rule.file.shape
  | some t => ∃ s ∈ f.rule.stages, .token t.kind ∈ s.firsts ∧ f.rest = s.after (.token t.kind)

namespace Frame

variable {f : Frame} {last : Option Token} {t : Token}

lemma Behind.stage (h : f.Behind last) : f.rest ∈ f.rule.stages := by
  cases last with
  | none =>
    obtain ⟨hr, hs⟩ := h
    rw [hr, hs]
    exact (check_stages .file (Rule.mem_all _)).1
  | some t =>
    obtain ⟨s, hs, hp, he⟩ := h
    rw [he]
    exact ((check_stages f.rule (Rule.mem_all _)).2 s hs _ hp).1

lemma Behind.tidy (h : f.Behind last) : f.offer.Tidy :=
  (check_offers f.rule (Rule.mem_all _) f.rest h.stage).1

/-- Names are offered beside no keyword but the one behind an opening parenthesis. -/
lemma Behind.ident_keyword (h : f.Behind last) (hi : f.offer .ident = true) {k : Keyword}
    (hk : f.offer (.keyword k) = true) :
    k = .kwStream ∧ ∃ a, last = some a ∧ a.kind = .openParen := by
  cases last with
  | none =>
    obtain ⟨hr, hs⟩ := h
    rw [f.offer_eq, hr, hs, check_start.1] at hi
    cases hi
  | some a =>
    obtain ⟨s, hs, hp, he⟩ := h
    have hc := (check_keywords f.rule (Rule.mem_all _) s hs a.kind (Terminal.mem_all _) hp k
      (Keyword.mem_all k)).1
    rw [← he] at hc
    exact ⟨(hc hi hk).1, a, rfl, (hc hi hk).2⟩

/-- Words are offered beside keywords only behind a closing brace. -/
lemma Behind.word_keyword (h : f.Behind last) (hw : f.offer .word = true) (k : Keyword) :
    f.offer (.keyword k) = true ↔
      (∃ a, last = some a ∧ a.kind = .closeBrace) ∧ k ∈ Keyword.openers := by
  cases last with
  | none =>
    obtain ⟨hr, hs⟩ := h
    rw [f.offer_eq, hr, hs, check_start.2] at hw
    cases hw
  | some a =>
    obtain ⟨s, hs, hp, he⟩ := h
    have hc := (check_keywords f.rule (Rule.mem_all _) s hs a.kind (Terminal.mem_all _) hp k
      (Keyword.mem_all k)).2
    rw [← he, ← f.offer_eq] at hc
    simpa using hc hw

/-- A token that is neither misread nor a bare stream keeps its kind. -/
lemma Behind.classify_eq (h : f.Behind last) (ho : f.offer t.kind = true)
    (hv : t.kind.Spells t.text) (hm : ∀ a ∈ last, ¬ a.Misread t)
    (hb : ∀ a ∈ last, ¬ a.BareStream t) : f.offer.classify t.kind t.text = t.kind := by
  obtain ⟨kind, text, pos⟩ := t
  simp only at ho hv ⊢
  cases hv with
  | fixed hv => exact Offer.classify_fixed ho hv _
  | @ident c cs hc hcs =>
    refine Offer.classify_free fun u hu hs => ?_
    cases u with
    | keyword k =>
      obtain ⟨rfl, a, rfl, ha⟩ := h.ident_keyword ho hu
      exact hb a rfl ⟨ha, rfl, (Option.some.inj hs).symm⟩
    | ident => cases hs
    | string => cases hs
    | word => cases hs
    | _ =>
      cases hs
      exact absurd hc (by decide)
  | string hq _ => exact Offer.classify_string hq _
  | word _ hall _ =>
    refine Offer.classify_free fun u hu hs => ?_
    cases u with
    | keyword k =>
      obtain ⟨⟨a, rfl, ha⟩, hk⟩ := (h.word_keyword ho k).mp hu
      exact hm a rfl ⟨ha, rfl, k, hk, Option.some.inj hs⟩
    | ident => cases hs
    | string => cases hs
    | word => cases hs
    | semicolon =>
      cases hs
      exact absurd (hall ';' (by simp)) (by decide)
    | openBrace =>
      cases hs
      exact absurd (hall '\x7b' (by simp)) (by decide)
    | closeBrace =>
      cases hs
      exact absurd (hall '\x7d' (by simp)) (by decide)
    | _ =>
      have hn := Offer.word_unoffered h.tidy hu (by decide)
      rw [ho] at hn
      cases hn

lemma Behind.classify_misread {a : Token} (h : f.Behind (some a)) (ho : f.offer t.kind = true)
    (hm : a.Misread t) : ∃ k, f.offer.classify t.kind t.text = .keyword k := by
  obtain ⟨ha, ht, k, hk, he⟩ := hm
  rw [ht] at ho
  have hok := (h.word_keyword ho k).mpr ⟨⟨a, rfl, ha⟩, hk⟩
  exact ⟨k, Offer.classify_fixed hok (congrArg some he) _⟩

end Frame

namespace Stack

open Proto.Frame (opening)

variable {t : Token} {f g : Frame} {below : List Frame}

lemma shiftInto_token {k : Terminal} (h : g.rest.choose t.kind = some (.token k)) :
    shiftInto t g below = some ⟨g.push (.leaf t), below⟩ := by
  rw [shiftInto.eq_def]
  simp [Frame.enter?, h]

/-- To shift a token that begins a node is to shift it into the new node. -/
lemma shiftInto_enter {r : Rule} (h : f.rest.choose t.kind = some (.rule r)) (hr : r ≠ .file)
    (hs : (r.shape.choose t.kind).isSome = true) :
    shiftInto t f below = shiftInto t (opening r) (f :: below) := by
  obtain ⟨-, -, hc | ⟨q, -, hc, hq⟩⟩ :=
    (check_starts r (Rule.mem_all r) hr).2 t.kind (Terminal.mem_all _) hs
  · have ho : (opening r).rest.choose t.kind = some (.token t.kind) := hc
    rw [shiftInto_token ho, shiftInto.eq_def]
    simp [Frame.enter?, Frame.maxDepth, h, ho]
  · have ho : (opening r).rest.choose t.kind = some (.rule q) := hc
    have hp : (opening q).rest.choose t.kind = some (.token t.kind) := hq
    rw [shiftInto.eq_def, shiftInto.eq_def t (opening r)]
    simp [Frame.enter?, Frame.maxDepth, h, ho, hp]

lemma shiftInto_close (h : g.rest.choose t.kind = none) (hn : g.rest.nullable = true) :
    shiftInto t g (f :: below) = shiftInto t (f.push g.tree) below := by
  rw [shiftInto.eq_def]
  simp [Frame.enter?, h, hn]

lemma shiftInto_eq_none (h : g.rest.choose t.kind = none) (hn : g.rest.nullable = false) :
    shiftInto t g below = none := by
  rw [shiftInto.eq_def]
  simp [Frame.enter?, h, hn]

/-- Takes a token with the kind that the offer gives it. -/
def take? (s : Stack) (t : Token) : Option Stack :=
  s.shift? { t with kind := s.top.offer.classify t.kind t.text }

/-- The token is a lexeme that is offered where the stack stands. -/
structure Admits (s : Stack) (t : Token) : Prop where
  tidy : s.top.offer.Tidy
  offered : s.top.offer t.kind = true
  spelled : t.kind.Spells t.text

/-- The tokens lead from one stack to another. -/
inductive Takes : Stack → List Token → Stack → Prop
  | nil (s : Stack) : Takes s [] s
  | cons {s s' s'' : Stack} {t : Token} {ts : List Token} :
      s.Admits t → s.take? t = some s' → Takes s' ts s'' → Takes s (t :: ts) s''

/-- One of the tokens is not taken. -/
inductive Jams : Stack → List Token → Prop
  | here {s : Stack} {t : Token} {ts : List Token} : s.Admits t → s.take? t = none → Jams s (t :: ts)
  | later {s s' : Stack} {t : Token} {ts : List Token} :
      s.Admits t → s.take? t = some s' → Jams s' ts → Jams s (t :: ts)

lemma Takes.spelled {s s' : Stack} {t : Token} {ts : List Token} (h : Takes s (t :: ts) s') :
    t.kind.Spells t.text := by
  cases h with
  | cons ha _ _ => exact ha.spelled

lemma Jams.spelled {s : Stack} {t : Token} {ts : List Token} (h : Jams s (t :: ts)) :
    t.kind.Spells t.text := by
  cases h with
  | here ha _ => exact ha.spelled
  | later ha _ _ => exact ha.spelled

lemma Takes.append {s s' s'' : Stack} {us vs : List Token} (h : Takes s us s')
    (h' : Takes s' vs s'') : Takes s (us ++ vs) s'' := by
  induction h with
  | nil => exact h'
  | cons ha ht _ ih => exact .cons ha ht (ih h')

lemma Takes.jams {s s' : Stack} {us vs : List Token} (h : Takes s us s') (h' : Jams s' vs) :
    Jams s (us ++ vs) := by
  induction h with
  | nil => exact h'
  | cons ha ht _ ih => exact .later ha ht (ih h')

lemma Jams.append {s : Stack} {us : List Token} (h : Jams s us) (vs : List Token) :
    Jams s (us ++ vs) := by
  induction h with
  | here ha ht => exact .here ha ht
  | later ha ht _ ih => exact .later ha ht ih

/-- The stack, which has just read `last`, takes what can come next as the open node `g` on top of
`below` would. -/
structure Stands (s : Stack) (last : Option Token) (g : Frame) (below : List Frame) : Prop where
  stage : g.rest ∈ g.rule.stages
  behind : s.top.Behind last
  shift : ∀ t : Token, (g.rest.choose t.kind).isSome = true → s.shift? t = shiftInto t g below
  offers : ∀ k, (g.rest.choose k).isSome = true → s.top.offer k = true
  /-- Where a word may come, every token reaches the node. -/
  exposed : (g.rest.choose .word).isSome = true →
    ∀ t : Token, t.kind ≠ .dot → s.shift? t = shiftInto t g below

/-- Moreover the node has been begun, so that it can also be closed. -/
structure Rests (s : Stack) (last : Option Token) (g : Frame) (below : List Frame) : Prop
    extends Stands s last g below where
  pass : ∀ t : Token, t.kind ≠ .dot → s.shift? t = shiftInto t g below
  close : s.close? = closeInto g below
  follows : g.rest.nullable = true → ∀ k ∈ g.rule.follows, s.top.offer k = true

variable {s : Stack} {last : Option Token}

/-- A stack stands for its own top. -/
lemma rests_self (h : g.Behind last) : Rests ⟨g, below⟩ last g below where
  stage := h.stage
  behind := h
  shift _ _ := rfl
  offers k hk := by simp [Frame.offer, hk]
  exposed _ _ _ := rfl
  pass _ _ := rfl
  close := rfl
  follows hn k hk := ((check_offers g.rule (Rule.mem_all _) g.rest h.stage).2.1 hn).1 k hk

lemma Stands.choose (h : Stands s last g below) {p : Piece} (hp : p ∈ g.rest.firsts) {k : Terminal}
    (hk : p.begins k = true) : g.rest.choose k = some p :=
  ((check_stages g.rule (Rule.mem_all _)).2 g.rest h.stage p hp).2.2 k (Terminal.mem_all k) hk

/-- A stack that stands for a node also stands for the node that is opened next in it. -/
lemma Stands.enter {r : Rule} (h : Stands s last f below) (hp : .rule r ∈ f.rest.firsts) :
    Stands s last (opening r) (f :: below) := by
  have hr : r ≠ .file := fun he =>
    ((check_stages f.rule (Rule.mem_all _)).2 f.rest h.stage _ hp).2.1 (congrArg Piece.rule he)
  have hstarts := (check_starts r (Rule.mem_all r) hr).2
  have hchoose : ∀ k, ((opening r).rest.choose k).isSome = true → f.rest.choose k = some (.rule r) :=
    fun k hk => h.choose hp (hstarts k (Terminal.mem_all k) hk).1
  refine ⟨(check_stages r (Rule.mem_all r)).1, h.behind, ?_, ?_, ?_⟩
  · intro t ht
    have hc := hchoose t.kind ht
    rw [h.shift t (by simp [hc]), shiftInto_enter hc hr ht]
  · intro k hk
    exact h.offers k (by simp [hchoose k hk])
  · intro hw
    exact absurd rfl (hstarts .word (Terminal.mem_all _) hw).2.1

/-- A stack that rests at the end of a node rests behind that node. -/
lemma Rests.leave (h : Rests s last g (f :: below)) (hf : f.rest ∈ f.rule.stages)
    (hp : .rule g.rule ∈ f.rest.firsts) (hn : g.rest.nullable = true) :
    Rests s last (f.push g.tree) below := by
  have hstage := (check_stages f.rule (Rule.mem_all _)).2 f.rest hf _ hp
  have hr : g.rule ≠ .file := fun he => hstage.2.1 (congrArg Piece.rule he)
  obtain ⟨hdot, hfirst, hend⟩ :=
    check_behind f.rule (Rule.mem_all _) f.rest hf g.rule (Rule.mem_all _) hp
  have hpass : ∀ t : Token, t.kind ≠ .dot → s.shift? t = shiftInto t (f.push g.tree) below := by
    intro t ht
    have hc := ((check_offers g.rule (Rule.mem_all _) g.rest h.stage).2.1 hn).2 hr t.kind
      (Terminal.mem_all _) ht
    rw [h.pass t ht, shiftInto_close hc hn]
  refine ⟨⟨hstage.1, h.behind, ?_, ?_, fun _ => hpass⟩, hpass, ?_, ?_⟩
  · intro t ht
    refine hpass t fun he => ?_
    rw [he] at ht
    change ((f.rest.after (.rule g.rule)).choose .dot).isSome = true at ht
    simp [hdot] at ht
  · intro k hk
    exact h.follows hn k (hfirst k (Terminal.mem_all k) hk)
  · rw [h.close, closeInto, if_pos hn]
  · intro hnull k hk
    exact h.follows hn k (hend hnull k hk)

/-- A token that may come next and keeps its kind becomes a leaf of the node. -/
lemma Stands.take (h : Stands s last g below) (hp : .token t.kind ∈ g.rest.firsts)
    (hv : t.kind.Spells t.text) (hm : ∀ a ∈ last, ¬ a.Misread t)
    (hb : ∀ a ∈ last, ¬ a.BareStream t) :
    ∃ s', Takes s [t] s' ∧ Rests s' (some t) (g.push (.leaf t)) below := by
  have hc : g.rest.choose t.kind = some (.token t.kind) := h.choose hp (by simp [Piece.begins])
  have ho := h.offers t.kind (by simp [hc])
  have hk := h.behind.classify_eq ho hv hm hb
  refine ⟨⟨g.push (.leaf t), below⟩, .cons ⟨h.behind.tidy, ho, hv⟩ ?_ (.nil _), ?_⟩
  · rw [take?, hk, h.shift t (by simp [hc]), shiftInto_token hc]
  · exact rests_self ⟨g.rest, h.stage, hp, rfl⟩

/-- A misread word does not fit into the node. -/
lemma Stands.jam {a : Token} (h : Stands s (some a) g below) (hp : .token t.kind ∈ g.rest.firsts)
    (hv : t.kind.Spells t.text) (hm : a.Misread t) : Jams s [t] := by
  have hc : g.rest.choose t.kind = some (.token t.kind) := h.choose hp (by simp [Piece.begins])
  have ho := h.offers t.kind (by simp [hc])
  obtain ⟨k, hk⟩ := h.behind.classify_misread ho hm
  have hw : (g.rest.choose .word).isSome = true := by rw [← hm.2.1, hc]; rfl
  obtain ⟨hn, hkey⟩ := (check_offers g.rule (Rule.mem_all _) g.rest h.stage).2.2 hw
  refine .here ⟨h.behind.tidy, ho, hv⟩ ?_
  rw [take?, hk, h.exposed hw _ (by simp), shiftInto_eq_none (hkey k (Keyword.mem_all k)) hn]

lemma isChain_split {α : Type} {R : α → α → Prop} {xs ys : List α} :
    (xs ++ ys).IsChain R ↔ xs.IsChain R ∧ (xs.getLast?.toList ++ ys).IsChain R := by
  cases h : xs.getLast? with
  | none => simp [List.isChain_append, h]
  | some a =>
    rw [Option.toList_some, List.isChain_append, List.isChain_append, h]
    simp

lemma getLast?_split {α : Type} (xs ys : List α) :
    (xs.getLast?.toList ++ ys).getLast? = (xs ++ ys).getLast? := by
  cases h : xs.getLast? with
  | none => simp [List.getLast?_append, h]
  | some a => rw [Option.toList_some, List.getLast?_append, List.getLast?_append, h, List.getLast?_singleton]

/-- No word behind a closing brace is misread, neither in the tokens nor behind the last one. -/
def Clear (last : Option Token) (ts : List Token) : Prop :=
  (last.toList ++ ts).IsChain fun a b => ¬ a.Misread b

/-- No name behind an opening parenthesis is taken for a keyword. -/
def Marked (last : Option Token) (ts : List Token) : Prop :=
  (last.toList ++ ts).IsChain fun a b => ¬ a.BareStream b

/-- The last token once `ts` have been read. -/
def lastOf (last : Option Token) (ts : List Token) : Option Token := (last.toList ++ ts).getLast?

lemma clear_nil : Clear last [] := by cases last <;> simp [Clear]

lemma marked_nil : Marked last [] := by cases last <;> simp [Marked]

lemma lastOf_nil : lastOf last [] = last := by cases last <;> rfl

lemma clear_append {us vs : List Token} :
    Clear last (us ++ vs) ↔ Clear last us ∧ Clear (lastOf last us) vs := by
  unfold Clear lastOf
  rw [← List.append_assoc, isChain_split]

lemma marked_append {us vs : List Token} :
    Marked last (us ++ vs) ↔ Marked last us ∧ Marked (lastOf last us) vs := by
  unfold Marked lastOf
  rw [← List.append_assoc, isChain_split]

lemma lastOf_append (us vs : List Token) : lastOf last (us ++ vs) = lastOf (lastOf last us) vs := by
  unfold lastOf
  rw [getLast?_split, List.append_assoc]

/-- The tokens lead to the open node `g`, or, if one of them is misread, are not taken. -/
structure ReadsTo (s : Stack) (last : Option Token) (ts : List Token) (g : Frame)
    (below : List Frame) : Prop where
  takes : Clear last ts → ∃ s', Takes s ts s' ∧ Rests s' (lastOf last ts) g below
  jams : ¬ Clear last ts → Jams s ts

lemma ReadsTo.append {us vs : List Token} {g' : Frame} (h : ReadsTo s last us g below)
    (h' : ∀ s', Rests s' (lastOf last us) g below → ReadsTo s' (lastOf last us) vs g' below) :
    ReadsTo s last (us ++ vs) g' below := by
  by_cases hc : Clear last us
  · obtain ⟨s', ht, hr⟩ := h.takes hc
    have hv := h' s' hr
    refine ⟨fun hall => ?_, fun hall => ?_⟩
    · obtain ⟨s'', ht', hr'⟩ := hv.takes (clear_append.mp hall).2
      exact ⟨s'', ht.append ht', lastOf_append us vs ▸ hr'⟩
    · exact ht.jams (hv.jams fun hc' => hall (clear_append.mpr ⟨hc, hc'⟩))
  · exact ⟨fun hall => absurd (clear_append.mp hall).1 hc, fun _ => (h.jams hc).append vs⟩

/-- A token that may come next is read, or is misread. -/
lemma Stands.readsTo (h : Stands s last g below) (hp : .token t.kind ∈ g.rest.firsts)
    (hv : t.kind.Spells t.text) (hb : Marked last [t]) :
    ReadsTo s last [t] (g.push (.leaf t)) below := by
  have hlast : lastOf last [t] = some t := by simp [lastOf]
  cases last with
  | none =>
    have hc : Clear none [t] := .singleton t
    refine ⟨fun _ => ?_, fun hn => absurd hc hn⟩
    rw [hlast]
    exact h.take hp hv (by simp) (by simp)
  | some a =>
    have hb' : ¬ a.BareStream t := (List.isChain_cons_cons.mp hb).1
    refine ⟨fun hc => ?_, fun hc => ?_⟩
    · have hm : ¬ a.Misread t := (List.isChain_cons_cons.mp hc).1
      rw [hlast]
      exact h.take hp hv (by simpa using hm) (by simpa using hb')
    · have hm : a.Misread t := by
        by_contra hm
        exact hc (List.isChain_cons_cons.mpr ⟨hm, .singleton t⟩)
      exact h.jam hp hv hm

end Stack

namespace Frame

/-- The node with more children. -/
def pushAll (g : Frame) (ts : List Tree) : Frame := ts.foldl push g

@[simp] theorem pushAll_nil (g : Frame) : g.pushAll [] = g := rfl

@[simp] theorem pushAll_cons (g : Frame) (t : Tree) (ts : List Tree) :
    g.pushAll (t :: ts) = (g.push t).pushAll ts := rfl

@[simp] theorem pushAll_rule (g : Frame) (ts : List Tree) : (g.pushAll ts).rule = g.rule := by
  induction ts generalizing g with
  | nil => rfl
  | cons t ts ih => exact ih _

theorem pushAll_rest (g : Frame) (ts : List Tree) :
    (g.pushAll ts).rest = (ts.map Tree.piece).foldl (fun s p => s.after p) g.rest := by
  induction ts generalizing g with
  | nil => rfl
  | cons t ts ih => exact ih _

theorem pushAll_children (g : Frame) (ts : List Tree) :
    (g.pushAll ts).children = ts.reverse ++ g.children := by
  induction ts generalizing g with
  | nil => rfl
  | cons t ts ih => simp [ih, push]

/-- A new node with these children is the node of its rule. -/
theorem tree_pushAll (r : Rule) (ts : List Tree) : ((opening r).pushAll ts).tree = .node r ts := by
  rw [tree, pushAll_rule, pushAll_children]
  simp [opening]

end Frame

namespace Stack

open Proto.Frame (opening)

mutual

/-- From a stack that stands for a node, the tokens of a tree that may come next are read and the tree
becomes a child of the node. -/
theorem reads_tree {t : Tree} (hd : t.Derives) (hv : ∀ k ∈ t.tokens, k.kind.Spells k.text)
    {s : Stack} {last : Option Token} {g : Frame} {below : List Frame} (h : Stands s last g below)
    (hp : t.piece ∈ g.rest.firsts) (hb : Marked last t.tokens) :
    ReadsTo s last t.tokens (g.push t) below := by
  cases hd with
  | leaf k _ => exact h.readsTo hp (hv k (by simp [Tree.tokens])) hb
  | node r cs hm hcs =>
    have hr : r ≠ .file := fun he =>
      ((check_stages g.rule (Rule.mem_all _)).2 g.rest h.stage _ hp).2.1 (congrArg Piece.rule he)
    have hopen := h.enter hp
    simp only [Tree.tokens, Tree.tokensAll_eq] at hv hb ⊢
    cases hcs with
    | nil =>
      -- A node of any rule but that of a file has a child.
      have hn := Shape.matches_nil.mp hm
      rw [(check_starts r (Rule.mem_all r) hr).1] at hn
      cases hn
    | cons c cs hc hcs =>
      rw [List.flatMap_cons] at hv hb ⊢
      rw [marked_append] at hb
      rw [List.map_cons] at hm
      have hfirst := reads_tree hc (fun k hk => hv k (List.mem_append_left _ hk)) hopen
        (Shape.mem_firsts hm) hb.1
      have hnull : ((opening r).pushAll (c :: cs)).rest.nullable = true := by
        rw [Frame.pushAll_rest]
        exact Shape.matches_iff.mp hm
      have hall : ReadsTo s last (c.tokens ++ cs.flatMap Tree.tokens)
          ((opening r).pushAll (c :: cs)) (g :: below) :=
        hfirst.append fun s' hs' => reads_trees hcs
          (fun k hk => hv k (List.mem_append_right _ hk)) hs' (Shape.matches_after.mpr hm) hb.2
      refine ⟨fun hclear => ?_, hall.jams⟩
      obtain ⟨s', ht, hs'⟩ := hall.takes hclear
      have hleave := hs'.leave h.stage (by rw [Frame.pushAll_rule]; exact hp) hnull
      rw [Frame.tree_pushAll] at hleave
      exact ⟨s', ht, hleave⟩

/-- As `reads_tree`, for all the children that are still to come. -/
theorem reads_trees {ts : List Tree} (hd : Tree.DerivesAll ts)
    (hv : ∀ k ∈ ts.flatMap Tree.tokens, k.kind.Spells k.text)
    {s : Stack} {last : Option Token} {g : Frame} {below : List Frame} (h : Rests s last g below)
    (hm : g.rest.Matches (ts.map Tree.piece)) (hb : Marked last (ts.flatMap Tree.tokens)) :
    ReadsTo s last (ts.flatMap Tree.tokens) (g.pushAll ts) below := by
  cases hd with
  | nil =>
    refine ⟨fun _ => ⟨s, .nil s, ?_⟩, fun hn => absurd clear_nil hn⟩
    rw [List.flatMap_nil, lastOf_nil]
    exact h
  | cons t ts ht hts =>
    rw [List.flatMap_cons] at hv hb ⊢
    rw [marked_append] at hb
    rw [List.map_cons] at hm
    have hfirst := reads_tree ht (fun k hk => hv k (List.mem_append_left _ hk)) h.toStands
      (Shape.mem_firsts hm) hb.1
    exact hfirst.append fun s' hs' => reads_trees hts
      (fun k hk => hv k (List.mem_append_right _ hk)) hs' (Shape.matches_after.mpr hm) hb.2

end

/-- The reader builds a derivation of a file again, unless a word in it is misread. -/
theorem reads_file {cs : List Tree} (hd : (Tree.node .file cs).Derives)
    (hv : ∀ k ∈ (Tree.node .file cs).tokens, k.kind.Spells k.text)
    (hb : Marked none (Tree.node .file cs).tokens) :
    (Clear none (Tree.node .file cs).tokens → ∃ s,
      Takes ⟨opening .file, []⟩ (Tree.node .file cs).tokens s ∧ s.close? = some (.node .file cs)) ∧
    (¬ Clear none (Tree.node .file cs).tokens →
      Jams ⟨opening .file, []⟩ (Tree.node .file cs).tokens) := by
  simp only [Tree.tokens, Tree.tokensAll_eq] at hv hb ⊢
  rcases hd with _ | ⟨_, _, hm, hcs⟩
  have hstart : Rests ⟨opening .file, []⟩ none (opening .file) [] := rests_self ⟨rfl, rfl⟩
  have hall := reads_trees hcs hv hstart hm hb
  refine ⟨fun hclear => ?_, hall.jams⟩
  obtain ⟨s, ht, hs⟩ := hall.takes hclear
  have hnull : ((opening .file).pushAll cs).rest.nullable = true := by
    rw [Frame.pushAll_rest]
    exact Shape.matches_iff.mp hm
  refine ⟨s, ht, ?_⟩
  rw [hs.close, closeInto, if_pos hnull, Frame.tree_pushAll]

end Stack

end Stubsmith.Proto
