import Stubsmith.Proofs.Data.Result
import Stubsmith.Proofs.Proto.Reading
import Stubsmith.Proofs.Proto.Run

/-!
# Printing and parsing

The leaves of a derivation, written in order with blanks between them, are parsed to the same tree
again, line numbers apart, as long as no word behind a closing brace spells a keyword that can stand
there. A text with such a word is refused: blocks are opaque but for the words right behind the blocks
inside them.
-/
namespace Stubsmith.Proto

/-- The text holds the lexemes in order, with one blank or more between neighbours. -/
inductive Layout : List (List Char) → List Char → Prop
  | nil : Layout [] []
  | single (v : List Char) : Layout [v] v
  | cons {v w gap text : List Char} {vs : List (List Char)} :
      gap ≠ [] → (∀ c ∈ gap, isSpace c = true) → Layout (w :: vs) text →
      Layout (v :: w :: vs) (v ++ (gap ++ text))

namespace Reader

variable {r next : Reader} {rest : List Char}

/-- Blanks are passed over, up to the next character that is none. -/
lemma run_gap {gap : List Char} (hne : gap ≠ []) (hg : ∀ c ∈ gap, isSpace c = true)
    (hr : ∀ c ∈ rest.head?, isSpace c = false) :
    r.run 0 (gap ++ rest) = { r with position := r.position.after gap }.run 0 rest := by
  have hlex : r.stack.top.offer.lexeme? (gap ++ rest) = some (.space gap) := by
    obtain ⟨c, cs, rfl⟩ := List.exists_cons_of_ne_nil hne
    have hc := hg c (by simp)
    have hb := isBlank_of_isSpace hc
    have hq : string? (c :: cs ++ rest) = none := string?_of_isSpace hc
    have hi : ident? (c :: cs ++ rest) = none := by
      have hn : isIdentStart c = false := by
        by_contra hs
        rw [Bool.not_eq_false] at hs
        have hf := isIdentRest_of_isSpace hc
        rw [isIdentRest_of_isIdentStart hs] at hf
        cases hf
      simp [ident?, hn]
    have hcom : comment? (c :: cs ++ rest) = none := comment?_of_isSpace hc
    have hw : word? (c :: cs ++ rest) = none := by
      simp [word?, wordRun, endsWord, hb, nonempty?]
    have hs : space? (c :: cs ++ rest) = some (c :: cs) := by
      have ht : (c :: cs ++ rest).takeWhile isSpace = c :: cs := by
        rw [List.takeWhile_append_of_pos hg]
        cases rest with
        | nil => simp
        | cons d ds => simp [hr d (by simp)]
      rw [space?, ht]
      rfl
    unfold Offer.lexeme?
    rw [hcom, hq, hw, hi, hs]
    simp
  exact run_lexeme (l := .space gap) hne hlex rfl

/-- Blanks are passed over, whatever stands behind them. -/
lemma run_spaces {gap : List Char} (hg : ∀ c ∈ gap, isSpace c = true) :
    r.run 0 (gap ++ rest) = { r with position := r.position.after gap }.run 0 rest := by
  -- The blanks at the front of `rest` are read in one go with those before them.
  have hpass : ∀ (r : Reader) (u : List Char), (∀ c ∈ u, isSpace c = true) →
      r.run 0 (u ++ rest.dropWhile isSpace) =
        { r with position := r.position.after u }.run 0 (rest.dropWhile isSpace) := by
    intro r u hu
    rcases eq_or_ne u [] with rfl | hne
    · rfl
    · refine run_gap hne hu fun c hc => ?_
      have hhead := List.head?_dropWhile_not isSpace rest
      rw [Option.mem_def.mp hc] at hhead
      simpa using hhead
  have hfront : ∀ c ∈ rest.takeWhile isSpace, isSpace c = true :=
    fun c hc => List.all_eq_true.mp List.all_takeWhile c hc
  rw [← List.takeWhile_append_dropWhile (p := isSpace) (l := rest), ← List.append_assoc,
    hpass r _ (fun c hc => (List.mem_append.mp hc).elim (hg c) (hfront c)), hpass _ _ hfront,
    Position.after_append]

/-- A comment is kept. -/
lemma run_comment {v : List Char} (h : comment? (v ++ rest) = some v) :
    r.run 0 (v ++ rest) = { r with
      position := r.position.after v, comments := ⟨v, r.position⟩ :: r.comments }.run 0 rest := by
  have hlex : r.stack.top.offer.lexeme? (v ++ rest) = some (.comment v) := by
    simp [Offer.lexeme?, h]
  exact run_lexeme (l := .comment v) (comment?_spec h).1 hlex rfl

/-- A token that is admitted and taken is read if what stands behind it does not go on with it. -/
lemma run_take {t : Token} {s : Stack} (ha : r.stack.Admits t) (hp : t.position = r.position)
    (ht : r.stack.take? t = some s) (hr : t.kind.Detached rest) :
    r.run 0 (t.text ++ rest) = { r with
      position := r.position.after t.text, stack := s, lastToken := r.position }.run 0 rest := by
  have hlex := Offer.lexeme?_append ha.tidy ha.offered ha.spelled hr
  refine run_lexeme (l := .token _ t.text) ha.spelled.ne_nil hlex ?_
  obtain ⟨kind, text, position⟩ := t
  subst hp
  rw [Stack.take?] at ht
  simp only [accept, Lexeme.text, ht]

lemma run_jam {t : Token} (ha : r.stack.Admits t) (hp : t.position = r.position)
    (ht : r.stack.take? t = none) (hr : t.kind.Detached rest) :
    ∃ e, r.run 0 (t.text ++ rest) = .error e := by
  have hlex := Offer.lexeme?_append ha.tidy ha.offered ha.spelled hr
  refine ⟨r.fail (.unexpectedToken t.text),
    run_refused (l := .token _ t.text) ha.spelled.ne_nil hlex ?_⟩
  obtain ⟨kind, text, position⟩ := t
  subst hp
  rw [Stack.take?] at ht
  simp only [accept, ht]

end Reader

lemma Terminal.Spells.head_isSpace {t : Terminal} {v : List Char} (h : t.Spells v) :
    ∀ c ∈ v.head?, isSpace c = false := by
  intro c hc
  cases h with
  | fixed hv =>
    have hall : ∀ t ∈ Terminal.fixed, (t.spelling?.getD []).head?.all (!isSpace ·) = true := by
      decide +kernel
    have ht := hall t (Terminal.mem_fixed hv)
    rw [hv, Option.getD_some, Option.mem_def.mp hc] at ht
    simpa using ht
  | ident hs _ =>
    cases hc
    exact isSpace_of_isWordChar (isWordChar_of_isIdentRest (isIdentRest_of_isIdentStart hs)).1
  | string hq _ =>
    cases hc
    rcases hq with rfl | rfl <;> rfl
  | word _ hall _ => exact isSpace_of_isWordChar (hall c (List.mem_of_mem_head? hc))

/-- A laid out text begins with its first lexeme, hence with no blank. -/
lemma Layout.head_isSpace {t : Terminal} {v text : List Char} {vs : List (List Char)}
    (h : Layout (v :: vs) text) (hv : t.Spells v) : ∀ c ∈ text.head?, isSpace c = false := by
  intro c hc
  obtain ⟨d, ds, rfl⟩ := List.exists_cons_of_ne_nil hv.ne_nil
  refine hv.head_isSpace c ?_
  cases h with
  | single => exact hc
  | cons _ _ _ => exact hc

/-- In a laid out text each lexeme has a position, and with these positions the text is read as its
tokens are. -/
theorem Layout.run {vs : List (List Char)} {text : List Char} (h : Layout vs text) (p : Position) :
    ∃ ps : List Position, ps.length = vs.length ∧ ∀ ts : List Token, ts.map Token.text = vs →
      ts.map Token.position = ps → ∀ r : Reader, r.position = p →
        (∀ s, r.stack.Takes ts s → ∃ r', r.run 0 text = .ok r' ∧ r'.stack = s ∧
          r'.comments = r.comments) ∧
        (r.stack.Jams ts → ∃ e, r.run 0 text = .error e) := by
  induction h generalizing p with
  | nil =>
    refine ⟨[], rfl, fun ts hts _ r _ => ?_⟩
    obtain rfl := List.map_eq_nil_iff.mp hts
    refine ⟨fun s hs => ?_, fun hj => ?_⟩
    · cases hs
      exact ⟨r, rfl, rfl, rfl⟩
    · cases hj
  | single v =>
    refine ⟨[p], rfl, fun ts hts hps r hr => ?_⟩
    obtain ⟨t, rfl, rfl⟩ := List.map_eq_singleton_iff.mp hts
    have htp : t.position = r.position := by
      rw [hr]
      simpa using hps
    refine ⟨fun s hs => ?_, fun hj => ?_⟩
    · rcases hs with _ | ⟨ha, ht, hnil⟩
      cases hnil
      have hrun := @Reader.run_take r [] t _ ha htp ht (parted_nil.detached _)
      rw [List.append_nil] at hrun
      exact ⟨_, hrun, rfl, rfl⟩
    · rcases hj with ⟨ha, ht⟩ | ⟨_, _, hnil⟩
      · obtain ⟨e, he⟩ := @Reader.run_jam r [] t ha htp ht (parted_nil.detached _)
        rw [List.append_nil] at he
        exact ⟨e, he⟩
      · cases hnil
  | @cons v w gap text vs hne hg hl ih =>
    obtain ⟨ps, hlen, hps⟩ := ih ((p.after v).after gap)
    refine ⟨p :: ps, by simp [hlen], fun ts hts hpos r hr => ?_⟩
    obtain ⟨t, ts, rfl, rfl, htl⟩ := List.map_eq_cons_iff.mp hts
    obtain ⟨u, us, rfl, rfl, hus⟩ := List.map_eq_cons_iff.mp htl
    rw [List.map_cons, List.cons.injEq] at hpos
    have htp : t.position = r.position := hpos.1.trans hr.symm
    have hparted : Parted (gap ++ text) := by
      obtain ⟨c, cs, rfl⟩ := List.exists_cons_of_ne_nil hne
      exact parted_cons.mpr (hg c (by simp))
    have hgap : ∀ s, u.kind.Spells u.text → { r with
        position := r.position.after t.text, stack := s, lastToken := r.position }.run 0 (gap ++ text)
        = { r with position := (p.after t.text).after gap, stack := s, lastToken := r.position }.run 0 text := by
      intro s hs
      rw [Reader.run_gap hne hg (hl.head_isSpace hs), hr]
    refine ⟨fun s hs => ?_, fun hj => ?_⟩
    · rcases hs with _ | ⟨ha, ht, hs⟩
      rw [Reader.run_take ha htp ht (hparted.detached _), hgap _ hs.spelled]
      exact (hps (u :: us) htl hpos.2 _ rfl).1 s hs
    · rcases hj with ⟨ha, ht⟩ | ⟨ha, ht, hj⟩
      · exact Reader.run_jam ha htp ht (hparted.detached _)
      · rw [Reader.run_take ha htp ht (hparted.detached _), hgap _ hj.spelled]
        exact (hps (u :: us) htl hpos.2 _ rfl).2 hj

lemma Terminal.name_injective {t u : Terminal} (h : t.name = u.name) : t = u := by
  have hall : ∀ t ∈ Terminal.all, ∀ u ∈ Terminal.all, t.name = u.name → t = u := by decide +kernel
  exact hall t (mem_all t) u (mem_all u) h

namespace Node

/-- The leaf `b` is a word that spells a keyword and stands right behind the closing brace `a`. -/
def Misread (a b : Node) : Prop :=
  a.kind = Terminal.closeBrace.name ∧ b.kind = Terminal.word.name ∧
    b.value ∈ Keyword.openers.map fun k => Text.points k.spelling.toList

/-- The leaf `b` is the name `stream`, right behind the opening parenthesis `a`. -/
def BareStream (a b : Node) : Prop :=
  a.kind = Terminal.openParen.name ∧ b.kind = Terminal.ident.name ∧
    b.value = Keyword.kwStream.spelling

instance : DecidableRel Misread := fun _ _ => inferInstanceAs (Decidable (_ ∧ _ ∧ _))

instance : DecidableRel BareStream := fun _ _ => inferInstanceAs (Decidable (_ ∧ _ ∧ _))

/-- No word right behind a block spells a keyword that can open a statement or a method. A word stands
behind a closing brace only if the brace ends a block in the same body or option. -/
def Undisturbed (n : Node) : Prop := n.leaves.IsChain fun a b => ¬ Misread a b

/-- No message type begins with the name `stream` unless the keyword `stream` or a dot comes before it.
An opening parenthesis stands before a message type, with or without that keyword, and nowhere else. -/
def StreamsMarked (n : Node) : Prop := n.leaves.IsChain fun a b => ¬ BareStream a b

instance (n : Node) : Decidable n.Undisturbed :=
  inferInstanceAs (Decidable (n.leaves.IsChain fun a b => ¬ Misread a b))

instance (n : Node) : Decidable n.StreamsMarked :=
  inferInstanceAs (Decidable (n.leaves.IsChain fun a b => ¬ BareStream a b))

end Node

lemma Token.kind_leaf_eq_iff {a : Token} {t : Terminal} : a.leaf.kind = t.name ↔ a.kind = t := by
  rw [kind_leaf, Text.coe_inj]
  exact ⟨Terminal.name_injective, congrArg Terminal.name⟩

lemma Token.misread_leaf {a b : Token} : a.leaf.Misread b.leaf ↔ a.Misread b := by
  unfold Node.Misread Token.Misread
  refine and_congr kind_leaf_eq_iff (and_congr kind_leaf_eq_iff ?_)
  rw [value_leaf, List.mem_map]
  exact exists_congr fun k => and_congr_right fun _ => Text.points_inj

lemma Token.bareStream_leaf {a b : Token} : a.leaf.BareStream b.leaf ↔ a.BareStream b := by
  unfold Node.BareStream Token.BareStream
  exact and_congr kind_leaf_eq_iff (and_congr kind_leaf_eq_iff Text.points_inj)

/-- A property of neighbours that does not see line numbers holds of the leaves if it holds of the
tokens. -/
lemma isChain_leaves {R : Node → Node → Prop} {Q : Token → Token → Prop} {ns : List Node}
    {ts : List Token} (h : ts.map Token.leaf = ns.map Node.unlined)
    (hR : ∀ a b : Node, R a.unlined b.unlined ↔ R a b) (hQ : ∀ a b : Token, R a.leaf b.leaf ↔ Q a b) :
    ns.IsChain R ↔ ts.IsChain Q := by
  calc ns.IsChain R ↔ (ns.map Node.unlined).IsChain R := by simp only [List.isChain_map, hR]
    _ ↔ (ts.map Token.leaf).IsChain R := by rw [h]
    _ ↔ ts.IsChain Q := by simp only [List.isChain_map, hQ]

lemma parse_of_run {text : List Char} {r : Reader} {t : Tree} (h : Reader.start.run 0 text = .ok r)
    (hc : r.stack.close? = some t) :
    parse (String.ofList text) = .ok (t.toNode r.comments.reverse) := by
  simp [parse, read, h, Reader.finish, hc, bind, Except.bind, pure, Except.pure]

lemma parse_of_run_error {text : List Char} {e : SyntaxError}
    (h : Reader.start.run 0 text = .error e) : parse (String.ofList text) = .error e := by
  simp [parse, read, h, bind, Except.bind]

/-- The tokens of a derivation of a file, at the places where a laid out text has them, form the tree that is
read from the text, unless one of them is misread. -/
lemma Layout.reads {tree : Node} {text : List Char} (hd : tree.Derivation (.rule .file))
    (hs : tree.StreamsMarked) (hl : Layout (tree.leaves.map fun n => Text.chars n.value) text) :
    ∃ t : Tree, (t.toNode []).unlined = tree.unlined ∧
      (tree.Undisturbed → ∃ r, Reader.start.run 0 text = .ok r ∧ r.stack.close? = some t ∧ r.comments = []) ∧
      (¬ tree.Undisturbed → ∃ e, Reader.start.run 0 text = .error e) := by
  obtain ⟨ps, hlen, hrun⟩ := hl.run Position.start
  obtain ⟨t, hm⟩ := hd.mirrored ps (by simpa using hlen)
  have hpiece : t.piece = .rule .file := by simpa using hm.pieces
  have hleaves : t.tokens.map Token.leaf = tree.leaves.map Node.unlined := by simpa using hm.leaves
  have htexts : t.tokens.map Token.text = tree.leaves.map fun n => Text.chars n.value := by
    have hv := congrArg (List.map fun n => Text.chars n.value) hleaves
    simpa [Function.comp_def] using hv
  obtain ⟨cs, rfl⟩ : ∃ cs, t = .node .file cs := by
    cases t with
    | leaf k => cases hpiece
    | node r cs =>
      cases hpiece
      exact ⟨cs, rfl⟩
  have hmarked : Stack.Marked none (Tree.node .file cs).tokens :=
    (isChain_leaves hleaves (by simp [Node.BareStream])
      fun a b => not_congr Token.bareStream_leaf).mp hs
  have hclear : tree.Undisturbed ↔ Stack.Clear none (Tree.node .file cs).tokens :=
    isChain_leaves hleaves (by simp [Node.Misread]) fun a b => not_congr Token.misread_leaf
  have hspelled : ∀ k ∈ (Tree.node .file cs).tokens, k.kind.Spells k.text := by
    simpa using hm.spelled
  obtain ⟨htakes, hjams⟩ := Stack.reads_file (hm.derives _ (by simp)) hspelled hmarked
  obtain ⟨hok, herror⟩ := hrun _ htexts (by simpa using hm.positions) Reader.start rfl
  refine ⟨.node .file cs, by simpa using hm.nodes, fun hu => ?_, fun hu => ?_⟩
  · obtain ⟨s, hread, hclose⟩ := htakes (hclear.mp hu)
    obtain ⟨r, hr, rfl, hcom⟩ := hok s hread
    exact ⟨r, hr, hclose, hcom⟩
  · exact herror (hjams fun hc => hu (hclear.mpr hc))

/-- The leaves of a derivation of a file, written in order with blanks between them, are parsed to the
same tree, line numbers apart, exactly if no word right behind a block spells a keyword; otherwise the
text is refused. -/
theorem parse_layout {tree : Node} {text : List Char} (hd : tree.Derivation (.rule .file))
    (hs : tree.StreamsMarked) (hl : Layout (tree.leaves.map fun n => Text.chars n.value) text) :
    (tree.Undisturbed → ∃ n, parse (String.ofList text) = .ok n ∧ n.unlined = tree.unlined) ∧
    (¬ tree.Undisturbed → ∃ e, parse (String.ofList text) = .error e) := by
  obtain ⟨t, hnodes, hok, herror⟩ := hl.reads hd hs
  refine ⟨fun hu => ?_, fun hu => ?_⟩
  · obtain ⟨r, hr, hclose, hcom⟩ := hok hu
    refine ⟨_, parse_of_run hr hclose, ?_⟩
    rw [hcom]
    exact hnodes
  · obtain ⟨e, he⟩ := herror hu
    exact ⟨e, parse_of_run_error he⟩

/-- Lexemes with the same blanks everywhere between them are laid out. -/
lemma layout_joinWith {s : List Char} (hne : s ≠ []) (hs : ∀ c ∈ s, isSpace c = true)
    (vs : List (List Char)) : Layout vs (Text.joinWith s vs) := by
  induction vs with
  | nil => exact .nil
  | cons v vs ih =>
    cases vs with
    | nil => exact .single v
    | cons w vs =>
      rw [Text.joinWith, List.append_assoc]
      exact .cons hne hs ih

namespace Node

def ofTerminal (t : Terminal) (v : String) : Node := .mk t.name v none []

def ofRule (r : Rule) (ns : List Node) : Node := .mk r.name [] none ns

def ofKeyword (k : Keyword) : Node := ofTerminal (.keyword k) k.spelling

/-- The block around some nodes. -/
def braced (ns : List Node) : Node :=
  ofRule .block ([ofTerminal .openBrace "\x7b"] ++ ns ++ [ofTerminal .closeBrace "\x7d"])

end Node

open Node (ofTerminal ofRule ofKeyword braced)

/-- Two messages inside a message. The second begins with a word behind a block. -/
def nestedMessages : Node :=
  ofRule .file [ofRule .definition [ofRule .messageDef [ofKeyword .kwMessage, ofTerminal .ident "M",
    braced [ofTerminal .word "message", ofTerminal .word "A", braced [], ofTerminal .word "message",
      ofTerminal .word "B", braced []]]]]

/-- A body that is a balanced sequence of words and blocks need not be accepted. -/
theorem nestedMessages_refused :
    nestedMessages.Derivation (.rule .file) ∧ nestedMessages.StreamsMarked ∧
    Layout (nestedMessages.leaves.map fun n => Text.chars n.value)
      "message M \x7b message A \x7b \x7d message B \x7b \x7d \x7d".toList ∧
    ∃ e, parse "message M \x7b message A \x7b \x7d message B \x7b \x7d \x7d" = .error e := by
  refine ⟨Node.derivation_of_check _ (by decide +kernel) (by decide +kernel), by decide +kernel, ?_, ?_⟩
  · have h := layout_joinWith (s := [' ']) (by decide) (List.all_eq_true.mp (by decide))
      (nestedMessages.leaves.map fun n => Text.chars n.value)
    rwa [show Text.joinWith [' '] (nestedMessages.leaves.map fun n => Text.chars n.value) =
      "message M \x7b message A \x7b \x7d message B \x7b \x7d \x7d".toList by decide +kernel] at h
  · exact exists_error_of_isOk (by decide +kernel)

/-- An option with a block inside its block, and a method whose name and request are called `stream`. -/
def oddNames : Node :=
  ofRule .file [
    ofRule .optionDecl [ofKeyword .kwOption, ofTerminal .word "a/",
      braced [braced [], ofTerminal .word "rpcs", ofTerminal .string "'//'", ofTerminal .semicolon ";"],
      ofTerminal .semicolon ";"],
    ofRule .definition [ofRule .serviceDef [ofKeyword .kwService,
      ofRule .serviceName [ofTerminal .ident "service"], ofTerminal .openBrace "\x7b",
      ofRule .method [ofKeyword .kwRpc, ofRule .methodName [ofTerminal .ident "stream"],
        ofTerminal .openParen "(", ofKeyword .kwStream, ofRule .messageType [ofTerminal .ident "stream"],
        ofTerminal .closeParen ")", ofKeyword .kwReturns, ofTerminal .openParen "(",
        ofRule .messageType [ofTerminal .dot ".", ofTerminal .ident "stream", ofTerminal .dot ".",
          ofTerminal .ident "rpc"], ofTerminal .closeParen ")", ofTerminal .semicolon ";"],
      ofTerminal .closeBrace "\x7d"]]]

theorem oddNames_parsed :
    oddNames.Derivation (.rule .file) ∧ oddNames.StreamsMarked ∧ oddNames.Undisturbed ∧
    ∃ n, parse (String.ofList (Text.joinWith ['\t', '\n'] (oddNames.leaves.map fun n => Text.chars n.value)))
      = .ok n ∧ n.unlined = oddNames.unlined := by
  have hd : oddNames.Derivation (.rule .file) :=
    Node.derivation_of_check _ (by decide +kernel) (by decide +kernel)
  have hs : oddNames.StreamsMarked := by decide +kernel
  have hu : oddNames.Undisturbed := by decide +kernel
  have hl := layout_joinWith (s := ['\t', '\n']) (by decide) (List.all_eq_true.mp (by decide))
    (oddNames.leaves.map fun n => Text.chars n.value)
  exact ⟨hd, hs, hu, (parse_layout hd hs hl).1 hu⟩

end Stubsmith.Proto
