import Stubsmith.Proofs.Service.Attachment

/-!
# The comments of the methods of a file

Extraction finds the services of a parsed file with their methods without streams, in the order of the
text. Under each method it puts the texts of the comments that belong to it, in the order of the text. No
comment belongs to two methods, and a comment that belongs to a method stands in the body of its service,
inside no element, with no method or option between the comment and the method.
-/
namespace Stubsmith.Proto.IsService

variable {cs body : List Tree} {keyword title opening closing : Tree}

lemma mem_children (h : IsService cs keyword title opening body closing) :
    ∀ e ∈ [keyword, title] ++ body ++ [closing], e ∈ cs := by
  intro e he
  rw [h.children]
  simp only [List.mem_append, List.mem_cons, List.not_mem_nil, or_false] at he ⊢
  tauto

/-- The name of a service is the text behind its keyword. -/
lemma declaredName_eq (h : IsService cs keyword title opening body closing) :
    declaredName cs = title.text := by
  simp [declaredName, h.children]

/-- The closing brace of a service is a token as it is written. -/
lemma exists_closing (h : IsService cs keyword title opening body closing)
    (hsound : (Proto.Tree.node .serviceDef cs).Sound) : ∃ k, closing = .leaf k ∧ k.kind.Spells k.text := by
  have hclosing := hsound.child (h.mem_children closing (by simp))
  have hp := h.closing
  cases closing with
  | leaf k => exact ⟨k, rfl, hclosing.spelled k (by simp [Tree.tokens])⟩
  | node r ds => cases hp

end Stubsmith.Proto.IsService

namespace Stubsmith.Service

open Proto
open Text (CodePoint)

variable {text : List Char} {ms : List Mark} {cs : List Tree} {t item : Tree}

/-- The methods of a service without streams: their names, and the texts of the comments that belong to
them as far as they are not empty. -/
def documented (text : List Char) (comments : List Comment) (service : List Tree) :
    List (String × List (List CodePoint)) :=
  (methodSites service).map fun s =>
    (declaredName s.method.children, ((comments.filter (s.owns text)).map Comment.inner).filter (· != []))

/-- The name of a service, and the names and comments of its methods. -/
def digest (s : Service) : String × List (String × List (List CodePoint)) :=
  (s.name, s.methods.map fun m => (m.name, m.comments))

/-- The comment stands before the method of the service: no statement of the file but the one that
declares the service is around it, no element of the service is around it, and no method or option of the
service stands between the comment and the method. -/
structure StandsBefore (file : Tree) (service : List Tree) (s : MethodSite) (c : Comment) : Prop where
  statement : ∀ item ∈ file.children, item.start ≤ c.position.offset → c.position.offset < item.stop →
    item = .node .definition [.node .serviceDef service]
  element : ∀ e ∈ bodyElements service, e.start ≤ c.position.offset → e.stop ≤ c.position.offset
  between : ∀ e ∈ bodyElements service, e.piece ≠ .token .semicolon →
    e.stop ≤ c.position.offset ∨ s.method.start ≤ e.start
  before : c.position.offset < s.method.start

lemma service?_eq_some : item.service? = some cs ↔ item = .node .definition [.node .serviceDef cs] := by
  constructor
  · intro h
    unfold Tree.service? at h
    split at h
    · rw [Option.some.inj h]
    · cases h
  · rintro rfl
    rfl

/-- A keyword has the text of its spelling. -/
lemma text_keyword {k : Keyword} (h : t.Derives) (hp : t.piece = .token (.keyword k)) :
    t.text = k.spelling := by
  cases h with
  | node r cs _ _ => cases hp
  | leaf u hu =>
    have hkind : u.kind = .keyword k := by simpa [Tree.piece] using hp
    have hspelling : u.text = k.spelling.toList := hu _ (by rw [hkind]; rfl)
    simp [Tree.text, Tree.tokens, hspelling]

section Entity

variable {keyword title opening closing : Tree} {body : List Tree} {comments : List Comment}

/-- A service is read from its name and its body, with the comments between the elements of the body. -/
lemma readEntity_woven (hsound : (Proto.Tree.node .serviceDef cs).Sound)
    (h : IsService cs keyword title opening body closing) (hc : ∀ c ∈ comments, c.text ≠ []) :
    ∃ hne : title.text ≠ "", readEntity ((Proto.Tree.node .serviceDef cs).toNode comments) =
      let read := readElements title.text [] (woven Comment.node (Tree.toNode comments) body
        (bodyComments cs comments) ++ [closing.toNode comments])
      (read.1.map fun methods => some ⟨title.text, methods, hne⟩, read.2) := by
  have hchildren : ((Proto.Tree.node .serviceDef cs).toNode comments).children =
      keyword.toNode comments :: title.toNode comments :: opening.toNode comments ::
        (woven Comment.node (Tree.toNode comments) body (bodyComments cs comments) ++ [closing.toNode comments]) := by
    rw [Tree.toNode_service, Node.children, h.woven_eq hsound]
  have hkeyword := hsound.child (h.mem_children keyword (by simp))
  have htitle := hsound.child (h.mem_children title (by simp))
  have hfirst : slotText ((Proto.Tree.node .serviceDef cs).toNode comments) 0 = "service" := by
    simp only [slotText, hchildren, List.getElem?_cons_zero, Option.map_some, Option.getD_some,
      hkeyword.text_toNode hc, text_keyword hkeyword.derives h.keyword]
    rfl
  have hname : slotText ((Proto.Tree.node .serviceDef cs).toNode comments) 1 = title.text := by
    simp only [slotText, hchildren, List.getElem?_cons_succ, List.getElem?_cons_zero, Option.map_some,
      Option.getD_some, htitle.text_toNode hc]
  have hne : title.text ≠ "" :=
    htitle.text_ne_empty (htitle.derives.tokens_ne_nil (by simp [h.name]))
  have hnil : (title.text : List CodePoint) ≠ [] := by simpa using hne
  refine ⟨hne, ?_⟩
  unfold readEntity
  simp only [hfirst, hname, bne_self_eq_false, Bool.false_eq_true, if_false, if_neg hnil, headLength, hchildren,
    List.drop_succ_cons, List.drop_zero, describeService_coe hne]
  rfl

/-- A service is read with its name and the methods that are collected from its body. -/
lemma readEntity_collect (hsound : (Proto.Tree.node .serviceDef cs).Sound)
    (h : IsService cs keyword title opening body closing) (hc : ∀ c ∈ comments, c.text ≠ []) :
    ∃ s, (readEntity ((Proto.Tree.node .serviceDef cs).toNode comments)).1 = .ok (some s) ∧
      s.name = declaredName cs ∧ s.methods.map parts = (collect [] body (bodyComments cs comments)).map shown := by
  obtain ⟨hne, hread⟩ := readEntity_woven hsound h hc
  obtain ⟨k, rfl, hk⟩ := h.exists_closing hsound
  obtain ⟨methods, hmethods, hparts⟩ := exists_of_map_eq_ok
    (@readElements_woven body comments (bodyComments cs comments) title.text
      [] k hk hc (fun e he => ⟨hsound.child (h.mem_children e (by simp [he])), h.body e he⟩))
  rw [List.map_nil] at hmethods
  refine ⟨⟨title.text, methods, hne⟩, ?_, h.declaredName_eq.symm, hparts.symm⟩
  rw [hread]
  dsimp only
  rw [hmethods]
  rfl

end Entity

/-- A service is read with its name and its documented methods. -/
lemma readEntity_service (hsound : (Proto.Tree.node .serviceDef cs).Sound) (hms : Scanned .start text ms)
    (htokens : ∀ k ∈ (Proto.Tree.node .serviceDef cs).tokens, k ∈ tokensOf ms) :
    (readEntity ((Proto.Tree.node .serviceDef cs).toNode (commentsOf ms))).1.map (Option.map digest) =
      .ok (some (declaredName cs, documented text (commentsOf ms) cs)) := by
  obtain ⟨keyword, title, opening, body, closing, h⟩ := hsound.derives.service
  obtain ⟨s, hs, hname, hmethods⟩ := readEntity_collect hsound h hms.comment_ne_nil
  have hpairs : s.methods.map (fun m => (m.name, m.comments)) = documented text (commentsOf ms) cs := by
    have hview := congrArg (List.map fun q => (q.1, q.2.2)) hmethods
    rwa [collect_bodyComments h hsound hms htokens, List.map_map, List.map_map, List.map_map] at hview
  rw [hs, Except.map, Option.map_some, digest, hname, hpairs]

/-- A declaration whose keyword is not `service` declares no service, and nothing is said of it. -/
lemma readEntity_other {r : Rule} {comments : List Comment} (hsound : (Proto.Tree.node r cs).Sound)
    (hr : r ≠ .serviceDef) {k : Keyword} (hk : k.spelling ≠ "service")
    (hfirst : (cs.map Tree.piece)[0]? = some (.token (.keyword k))) (hc : ∀ c ∈ comments, c.text ≠ []) :
    readEntity ((Proto.Tree.node r cs).toNode comments) = (.ok none, []) := by
  obtain ⟨keyword, hkeyword, hp⟩ := exists_child hfirst
  have hchild := hsound.child (List.mem_of_getElem? hkeyword)
  have htext : slotText ((Proto.Tree.node r cs).toNode comments) 0 = k.spelling := by
    rw [Tree.toNode_of_ne hr]
    simp only [slotText, Node.children, List.getElem?_map, hkeyword, Option.map_some, Option.getD_some,
      hchild.text_toNode hc, text_keyword hchild.derives hp]
  unfold readEntity
  rw [htext, if_pos (bne_iff_ne.mpr (mt Text.coe_inj.mp hk))]

/-- What a node begins with. -/
lemma exists_first {r : Rule} (h : (Proto.Tree.node r cs).Derives) (hr : r ≠ .file) :
    ∃ e es, cs = e :: es ∧ e.piece ∈ r.shape.firsts := by
  cases cs with
  | nil => exact absurd rfl (h.tokens_ne_nil (by simpa [Tree.piece] using hr))
  | cons e es => exact ⟨e, es, rfl, Shape.mem_firsts h.split.1⟩

/-- A definition declares a service, or something else with a keyword of its own. -/
lemma exists_entity (h : (Proto.Tree.node .definition cs).Derives) :
    ∃ d ds, cs = [.node d ds] ∧ d ≠ .file ∧ (d ≠ .serviceDef → ∃ k : Keyword, k.spelling ≠ "service" ∧
      d.shape.firsts = [.token (.keyword k)]) := by
  have hm := h.split.1
  simp only [Rule.shape, Shape.oneOf, Shape.rule, Shape.matches_alt, Shape.matches_piece,
    List.map_eq_singleton_iff] at hm
  have hnode : ∀ {e : Tree} {d : Rule}, e.piece = .rule d → ∃ ds, e = .node d ds := by
    intro e d hp
    cases e with
    | leaf k => cases hp
    | node r ds =>
      cases hp
      exact ⟨ds, rfl⟩
  rcases hm with ⟨e, rfl, hp⟩ | ⟨e, rfl, hp⟩ | ⟨e, rfl, hp⟩ | ⟨e, rfl, hp⟩
  · obtain ⟨ds, rfl⟩ := hnode hp
    exact ⟨_, ds, rfl, by decide, fun _ => ⟨.kwMessage, by decide, rfl⟩⟩
  · obtain ⟨ds, rfl⟩ := hnode hp
    exact ⟨_, ds, rfl, by decide, fun _ => ⟨.kwEnum, by decide, rfl⟩⟩
  · obtain ⟨ds, rfl⟩ := hnode hp
    exact ⟨_, ds, rfl, by decide, fun _ => ⟨.kwExtend, by decide, rfl⟩⟩
  · obtain ⟨ds, rfl⟩ := hnode hp
    exact ⟨_, ds, rfl, by decide, fun hne => absurd rfl hne⟩

/-- A statement that is no definition begins with a token. -/
lemma firsts_statement : ∀ r ∈ Rule.all, Piece.rule r ∈ Rule.file.shape.pieces → r ≠ .definition →
    ∀ p ∈ r.shape.firsts, ∀ d ∈ Rule.all, p ≠ .rule d := by
  decide +kernel

/-- A statement is read as the service that it declares, if it declares one, and else nothing is said of it. -/
lemma readStatement_toNode {r : Rule} {comments : List Comment} (hsound : (Proto.Tree.node r cs).Sound)
    (hr : Piece.rule r ∈ Rule.file.shape.pieces) (hc : ∀ c ∈ comments, c.text ≠ []) :
    readStatement ((Proto.Tree.node r cs).toNode comments) =
      (Proto.Tree.node r cs).service?.elim (.ok none, []) fun service =>
        readEntity ((Proto.Tree.node .serviceDef service).toNode comments) := by
  have hservice : r ≠ .serviceDef := by
    rintro rfl
    exact absurd hr (by decide)
  have hfile : r ≠ .file := by
    rintro rfl
    exact absurd hr (by decide)
  rw [Tree.toNode_of_ne hservice]
  by_cases hdef : r = .definition
  · subst hdef
    obtain ⟨d, ds, rfl, hd, hkeyword⟩ := exists_entity hsound.derives
    have hentity : (Proto.Tree.node d ds).Sound := hsound.child (by simp)
    obtain ⟨first, rest, hds, hfirst⟩ := exists_first hentity.derives hd
    by_cases hserviceDef : d = .serviceDef
    · subst hserviceDef
      have hchildren : ((Proto.Tree.node .serviceDef ds).toNode comments).hasChildren = true := by
        obtain ⟨keyword, title, opening, body, closing, h⟩ := hentity.derives.service
        rw [Tree.toNode_service, h.woven_eq hentity]
        rfl
      simp [readStatement, Node.children, hchildren, Tree.service?]
    · obtain ⟨k, hk, hfirsts⟩ := hkeyword hserviceDef
      have hslot : (ds.map Tree.piece)[0]? = some (.token (.keyword k)) := by
        rw [hfirsts, List.mem_singleton] at hfirst
        rw [hds, List.map_cons, List.getElem?_cons_zero, hfirst]
      have hread := readEntity_other hentity hserviceDef hk hslot hc
      have hnone : (Proto.Tree.node .definition [.node d ds]).service? = none := by
        refine Option.eq_none_iff_forall_ne_some.mpr fun service hsome => ?_
        cases service?_eq_some.mp hsome
        exact hserviceDef rfl
      simp [readStatement, Node.children, hasChildren_toNode hentity.derives hserviceDef hd, hread, hnone]
  · obtain ⟨first, rest, rfl, hfirst⟩ := exists_first hsound.derives hfile
    have hleaf : (first.toNode comments).hasChildren = false := by
      cases first with
      | leaf k => rfl
      | node d ds =>
        exact absurd rfl (firsts_statement r (Rule.mem_all r) hr hdef _ hfirst d (Rule.mem_all d))
    have hnone : (Proto.Tree.node r (first :: rest)).service? = none := by
      refine Option.eq_none_iff_forall_ne_some.mpr fun service hsome => ?_
      cases service?_eq_some.mp hsome
      exact hdef rfl
    simp [readStatement, Node.children, hleaf, hnone]

lemma mem_services {file : Tree} :
    cs ∈ file.services ↔ .node .definition [.node .serviceDef cs] ∈ file.children := by
  simp only [Tree.services, List.mem_filterMap, service?_eq_some]
  constructor
  · rintro ⟨item, hitem, rfl⟩
    exact hitem
  · intro hitem
    exact ⟨_, hitem, rfl⟩

lemma service_sound {file : Tree} (hsound : file.Sound) (hcs : cs ∈ file.services) :
    (Proto.Tree.node .serviceDef cs).Sound := by
  have hitem := mem_services.mp hcs
  cases file with
  | leaf k => cases hitem
  | node r items => exact (hsound.child hitem).child (by simp)

/-- Of a file, its services are read one by one. -/
lemma extract_file {items : List Tree} {comments : List Comment}
    (hsound : (Proto.Tree.node .file items).Sound) (hc : ∀ c ∈ comments, c.text ≠ []) :
    extract ((Proto.Tree.node .file items).toNode comments) =
      inOrder ((Proto.Tree.node .file items).services.map fun service =>
        readEntity ((Proto.Tree.node .serviceDef service).toNode comments)) := by
  have hitem : ∀ item ∈ items, readStatement (item.toNode comments) =
      item.service?.elim (.ok none, []) fun service =>
        readEntity ((Proto.Tree.node .serviceDef service).toNode comments) := by
    intro item hmem
    have hpiece : item.piece ∈ Rule.file.shape.pieces :=
      Shape.mem_pieces hsound.derives.split.1 (List.mem_map_of_mem hmem)
    cases item with
    | leaf k =>
      have hrule : ∀ t ∈ Terminal.all, Piece.token t ∉ Rule.file.shape.pieces := by decide +kernel
      exact absurd hpiece (hrule k.kind (Terminal.mem_all _))
    | node r cs => exact readStatement_toNode (hsound.child hmem) hpiece hc
  rw [Tree.toNode_of_ne (by decide), extract, Node.children, List.map_map, Tree.services, Tree.children]
  clear hsound
  induction items with
  | nil => rfl
  | cons item items ih =>
    rw [List.forall_mem_cons] at hitem
    rw [List.map_cons, Function.comp_apply, hitem.1, List.filterMap_cons]
    cases item.service? with
    | none => exact inOrder_none.trans (ih hitem.2)
    | some service =>
      rw [Option.elim, List.map_cons]
      cases readEntity ((Proto.Tree.node .serviceDef service).toNode comments) with
      | mk found log =>
        cases found with
        | error issues => rfl
        | ok s => rw [inOrder_ok, inOrder_ok, ih hitem.2]

/-- The services of a file are extracted in order, with their documented methods. -/
lemma extract_toNode {items : List Tree} (hsound : (Proto.Tree.node .file items).Sound)
    (hms : Scanned .start text ms) (htokens : ∀ k ∈ (Proto.Tree.node .file items).tokens, k ∈ tokensOf ms) :
    (extract ((Proto.Tree.node .file items).toNode (commentsOf ms))).1.map (List.map digest) =
      .ok ((Proto.Tree.node .file items).services.map fun service =>
        (declaredName service, documented text (commentsOf ms) service)) := by
  rw [extract_file hsound hms.comment_ne_nil]
  refine (inOrder_view fun cs hcs => ?_).1
  refine readEntity_service (service_sound hsound hcs) hms fun k hk => htokens k ?_
  exact Tree.mem_tokens_of_child (mem_services.mp hcs) (Tree.mem_tokens_of_child (by simp) hk)

section Place

variable {s : MethodSite} {c : Comment} {items : List Tree}

/-- The comments of a method stand in its service. -/
lemma site_within (hsound : (Proto.Tree.node .serviceDef cs).Sound) (hs : s ∈ methodSites cs) :
    (Proto.Tree.node .serviceDef cs).start ≤ fence s.before ∧
      s.method.start < (Proto.Tree.node .serviceDef cs).stop := by
  obtain ⟨keyword, title, opening, body, closing, h⟩ := hsound.derives.service
  obtain ⟨-, hopening, -, v, -, hchildren⟩ := exists_split h hs
  have hfirst := hsound.child_within (c := opening) (by simp [hchildren, hopening])
  have hlast := hsound.child_within (c := s.method) (by simp [hchildren])
  have hpos := hsound.child_start_lt_stop (c := opening) (by simp [hchildren, hopening])
  have hmethod := (method_stop_le h hsound hs).1
  have hfence := before_le_fence h hsound hs hopening (by simp [h.opening])
  constructor
  · omega
  · omega

/-- The methods of a service are fenced off from each other. -/
lemma methodSites_ordered (hsound : (Proto.Tree.node .serviceDef cs).Sound) :
    (methodSites cs).Pairwise fun a b => a.method.start ≤ fence b.before := by
  obtain ⟨keyword, title, opening, body, closing, h⟩ := hsound.derives.service
  have hbefore : (methodSites cs).Pairwise fun a b => a.method ∈ b.before := by
    rw [methodSites_eq h]
    exact sitesFrom_ordered
  refine hbefore.imp_of_mem fun {a b} ha hb hab => ?_
  have hunary := (exists_split h ha).2.2.1
  have hne : a.method.piece ≠ .token .semicolon := fun hp => by
    rw [isUnary_token hp] at hunary
    cases hunary
  have hle := before_le_fence h hsound hb hab hne
  have hpos := (method_stop_le h hsound ha).1
  omega

lemma service_within (hsound : (Proto.Tree.node .definition [.node .serviceDef cs]).Sound) :
    (Proto.Tree.node .definition [.node .serviceDef cs]).start ≤ (Proto.Tree.node .serviceDef cs).start ∧
      (Proto.Tree.node .serviceDef cs).stop ≤ (Proto.Tree.node .definition [.node .serviceDef cs]).stop :=
  hsound.child_within (by simp)

/-- The methods of a file are fenced off from each other. -/
lemma sites_ordered (hsound : (Proto.Tree.node .file items).Sound) :
    ((Proto.Tree.node .file items).services.flatMap methodSites).Pairwise
      fun a b => a.method.start ≤ fence b.before := by
  rw [List.pairwise_flatMap]
  refine ⟨fun cs hcs => methodSites_ordered (service_sound hsound hcs), ?_⟩
  rw [Tree.services, Tree.children, List.pairwise_filterMap]
  refine hsound.children_ordered.imp_of_mem fun {p q} hp hq hpq cs hcs ds hds a ha b hb => ?_
  obtain rfl := service?_eq_some.mp hcs
  obtain rfl := service?_eq_some.mp hds
  have hfirst := service_within (hsound.child hp)
  have hsecond := service_within (hsound.child hq)
  have hstop := (site_within ((hsound.child hp).child (by simp)) ha).2
  have hstart := (site_within ((hsound.child hq).child (by simp)) hb).1
  omega

/-- Only one statement of a file is around a place. -/
lemma statement_unique {p q : Tree} {n : Nat} (hsound : (Proto.Tree.node .file items).Sound) (hp : p ∈ items)
    (hq : q ∈ items) (hpn : p.start ≤ n ∧ n < p.stop) (hqn : q.start ≤ n ∧ n < q.stop) : p = q := by
  let apart (a b : Tree) : Prop := a.stop ≤ b.start ∨ b.stop ≤ a.start
  have hsymm : Std.Symm apart := ⟨fun _ _ hab => hab.symm⟩
  by_contra hne
  have hapart : apart p q := (hsound.children_ordered.imp Or.inl : items.Pairwise apart).forall hp hq hne
  rcases hapart with hle | hle
  · omega
  · omega

/-- A comment that belongs to a method stands before it. -/
lemma standsBefore_of_owns (hsound : (Proto.Tree.node .file items).Sound) (hms : Scanned .start text ms)
    (htokens : ∀ k ∈ (Proto.Tree.node .file items).tokens, k ∈ tokensOf ms)
    (hcs : cs ∈ (Proto.Tree.node .file items).services) (hs : s ∈ methodSites cs) (hc : c ∈ commentsOf ms)
    (howns : s.owns text c = true) : StandsBefore (.node .file items) cs s c := by
  have hitem : .node .definition [.node .serviceDef cs] ∈ items := mem_services.mp hcs
  have hservice := service_sound hsound hcs
  have hinside : ∀ k ∈ (Proto.Tree.node .serviceDef cs).tokens, k ∈ tokensOf ms := fun k hk =>
    htokens k (Tree.mem_tokens_of_child hitem (Tree.mem_tokens_of_child (by simp) hk))
  obtain ⟨keyword, title, opening, body, closing, h⟩ := hservice.derives.service
  obtain ⟨helements, -, -, v, hsplit, -⟩ := exists_split h hs
  have hbody : bodyElements cs = s.elements := by rw [h.bodyElements_eq, helements]
  rw [MethodSite.owns, Bool.and_eq_true, Bool.and_eq_true, decide_eq_true_eq, decide_eq_true_eq] at howns
  obtain ⟨⟨hle, hlt⟩, -⟩ := howns
  have hout := (outside_elements h hservice hms hinside hs hc hle hlt).2.2
  have hwithin := site_within hservice hs
  have hdefinition := service_within (hsound.child hitem)
  refine ⟨fun item hmem hstart hstop => ?_, by rwa [hbody], fun e he hp => ?_, hlt⟩
  · exact statement_unique hsound hmem hitem ⟨hstart, hstop⟩ ⟨by omega, by omega⟩
  · rw [hbody, hsplit] at he
    rcases List.mem_append.mp he with he | he
    · exact Or.inl ((before_le_fence h hservice hs he hp).trans hle)
    · rcases List.mem_cons.mp he with rfl | he
      · exact Or.inr le_rfl
      · obtain ⟨hpos, -, hbehind⟩ := method_stop_le h hservice hs
        have hlater := hbehind v hsplit e he
        exact Or.inr (by omega)

end Place

/-- What extraction finds in an accepted text, of which `read` gives the file and the comments. The tokens of the file
are those of the text. The services of the file come with their names and their documented methods; no comment
belongs to two methods; and a comment that belongs to a method stands before it. -/
theorem extract_documented {text : String} {tree : Node} (h : parse text = .ok tree) :
    ∃ (file : Tree) (ms : List Mark) (services : List Service),
      read text.toList = .ok (file, commentsOf ms) ∧ tree = file.toNode (commentsOf ms) ∧
      Scanned .start text.toList ms ∧ file.Derives ∧ file.piece = .rule .file ∧ file.tokens = tokensOf ms ∧
      (extract tree).1 = .ok services ∧
      services.map (fun s => (s.name, s.methods.map fun m => (m.name, m.comments))) =
        file.services.map (fun service =>
          (declaredName service, documented text.toList (commentsOf ms) service)) ∧
      ((file.services.flatMap methodSites).Pairwise fun a b =>
        ∀ c, a.owns text.toList c = true → b.owns text.toList c = false) ∧
      ∀ service ∈ file.services, ∀ s ∈ methodSites service, ∀ c ∈ commentsOf ms,
        s.owns text.toList c = true → StandsBefore file service s c := by
  obtain ⟨items, ms, hread, hms, hsound, htokens, rfl⟩ := parse_eq_ok h
  have hinside : ∀ k ∈ (Proto.Tree.node .file items).tokens, k ∈ tokensOf ms := fun k hk => htokens ▸ hk
  obtain ⟨services, hservices, hdigests⟩ := exists_of_map_eq_ok (extract_toNode hsound hms hinside)
  refine ⟨_, ms, services, hread, rfl, hms, hsound.derives, rfl, htokens, hservices, hdigests.symm, ?_,
    fun service hservice s hs c hc howns => ?_⟩
  · refine (sites_ordered hsound).imp fun {a b} hab c hown => ?_
    simp only [MethodSite.owns, Bool.and_eq_true, decide_eq_true_eq] at hown
    have hfence : ¬ fence b.before ≤ c.position.offset := by omega
    simp [MethodSite.owns, hfence]
  · exact standsBefore_of_owns hsound hms hinside hservice hs hc howns

/-- Comments on their own lines and behind elements, before semicolons, options and streams, over two lines,
inside a method, and before another service. -/
def commentedServices : String :=
  "service S\x7b//-\n//a\nrpc A(X)returns(Y);//-\n//b\n;\n/*c*/rpc B(X)returns(Y);\n//-\noption o=1;//-\n" ++
  "rpc C(stream X)returns(Y);\n/*d\n*/rpc D(streamX)returns(Y)\x7b//-\n\x7d\x7d//-\nservice T\x7brpc E(X)returns(Y);\x7d"

theorem commentedServices_documented : ∃ (tree : Node) (services : List Service),
    parse commentedServices = .ok tree ∧ (extract tree).1 = .ok services ∧
    services.map (fun s => (s.name, s.methods.map fun m => (m.name, m.comments.map Text.spelled))) =
      [("S", [("A", ["a"]), ("B", ["b", "c"]), ("D", ["d"])]), ("T", [("E", [])])] ∧
    ∃ (file : Tree) (ms : List Mark), read commentedServices.toList = .ok (file, commentsOf ms) ∧
      Scanned .start commentedServices.toList ms ∧ file.tokens = tokensOf ms ∧
      services.map (fun s => (s.name, s.methods.map fun m => (m.name, m.comments))) =
        file.services.map fun service =>
          (declaredName service, documented commentedServices.toList (commentsOf ms) service) := by
  have hextract : ((parse commentedServices).toOption.bind fun tree => (extract tree).1.toOption.map
      (List.map fun s => (s.name, s.methods.map fun m => (m.name, m.comments.map Text.spelled)))) =
      some [("S", [("A", ["a"]), ("B", ["b", "c"]), ("D", ["d"])]), ("T", [("E", [])])] := by
    decide +kernel
  obtain ⟨tree, htree, hfound⟩ := Option.bind_eq_some_iff.mp hextract
  obtain ⟨found, hservices, hmethods⟩ := Option.map_eq_some_iff.mp hfound
  have hparse := eq_ok_of_toOption htree
  obtain ⟨file, ms, services, hread, -, hms, -, -, htokens, hextracted, hdigests, -⟩ := extract_documented hparse
  cases hextracted.symm.trans (eq_ok_of_toOption hservices)
  exact ⟨tree, found, hparse, hextracted, hmethods, file, ms, hread, hms, htokens, hdigests⟩

end Stubsmith.Service
