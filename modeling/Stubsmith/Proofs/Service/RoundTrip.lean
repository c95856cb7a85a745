import Stubsmith.Proofs.Service.Concatenation
import Stubsmith.Proofs.Service.Extraction
import Stubsmith.Proofs.Service.Printing
import Stubsmith.Proofs.Text.Trimming

/-!
# Printing and extraction

In a printed service every comment stands on a line of its own, above the line of its method, so extraction
gives it back to the method. Services that are printed one behind the other are extracted in order.
-/
namespace Stubsmith.Service

open Proto
open Text (CodePoint)

variable {p : Position} {m : Method} {ms : List Method} {s : Service}

/-- Where the line of a method begins whose comments begin at a position. -/
def linePosition (p : Position) (m : Method) : Position := p.after (textOf (commentLexemes m.comments))

def methodTree (p : Position) (m : Method) : Tree := .node .method ((lineDraft m).trees p)

def commentsFrom (p : Position) (m : Method) : List Comment :=
  commentsOf (marksFrom p (commentLexemes m.comments))

lemma tokensOf_comments (cs : List (List CodePoint)) : tokensOf (marksFrom p (commentLexemes cs)) = [] := by
  rw [← List.map_eq_nil_iff, map_tokensOf_marksFrom]
  simp [commentLexemes, lineEnd, Lexeme.token?, List.filterMap_flatMap, List.filterMap_cons]

lemma commentsOf_line : commentsOf (marksFrom p ((lineDraft m).lexemes ++ [lineEnd])) = [] := by
  rw [List.eq_nil_iff_forall_not_mem]
  intro c hc
  rcases List.mem_append.mp (mem_of_mem_commentsOf hc) with hmem | hmem
  · rcases mem_line hmem with hl | ⟨k, v, hl⟩
    · cases hl
    · cases hl
  · cases List.mem_singleton.mp hmem

lemma trees_body_cons : (bodyDraft (m :: ms)).trees p =
    methodTree (linePosition p m) m :: (bodyDraft ms).trees (p.after (methodDraft m).text) := by
  have hcomments : (Draft.lex (commentLexemes m.comments)).trees p = [] := by
    show (tokensOf _).map Tree.leaf = []
    rw [tokensOf_comments, List.map_nil]
  show (Draft.lex (commentLexemes m.comments)).trees p ++ [methodTree (linePosition p m) m] ++ [] ++
    (bodyDraft ms).trees (p.after (methodDraft m).text) = _
  rw [hcomments]
  rfl

lemma comments_body_cons : commentsOf (marksFrom p (bodyDraft (m :: ms)).lexemes) =
    commentsFrom p m ++ commentsOf (marksFrom (p.after (methodDraft m).text) (bodyDraft ms).lexemes) := by
  rw [lexemes_body, List.flatMap_cons, marksFrom_append, commentsOf_append, lexemes_method, marksFrom_append,
    commentsOf_append, commentsOf_line, List.append_nil, ← lexemes_method, ← lexemes_body]
  rfl

lemma newline_not_mem_line (h : PrintableMethod m) : '\n' ∉ (lineDraft m).text := by
  intro hmem
  obtain ⟨l, hl, hmem⟩ := List.mem_flatMap.mp hmem
  rcases mem_line hl with rfl | ⟨k, v, rfl⟩
  · exact absurd hmem (by decide)
  · exact ((@legible_line [] m h).spelled hl).newline_not_mem hmem

/-- A method stands on one line, between its comments and the next position. -/
lemma methodTree_stands (h : PrintableMethod m) (p : Position) :
    (methodTree (linePosition p m) m).start = (linePosition p m).offset ∧
    (methodTree (linePosition p m) m).start < (methodTree (linePosition p m) m).stop ∧
    (methodTree (linePosition p m) m).stop ≤ (p.after (methodDraft m).text).offset ∧
    ∀ l ∈ (methodTree (linePosition p m) m).lastLine, l < (p.after (methodDraft m).text).line := by
  have htokens : (methodTree (linePosition p m) m).tokens =
      tokensOf (marksFrom (linePosition p m) (lineDraft m).lexemes) := by
    rw [methodTree, Tree.tokens, Tree.tokensAll_eq, (lineDraft m).tokens_eq]
  have hfirst : ∃ ts, (methodTree (linePosition p m) m).tokens =
      ⟨.keyword .kwRpc, Keyword.kwRpc.spelling.toList, linePosition p m⟩ :: ts := by
    rw [htokens, lexemes_line]
    exact ⟨_, rfl⟩
  obtain ⟨ts, hts⟩ := hfirst
  have hstart : (methodTree (linePosition p m) m).start = (linePosition p m).offset := by
    rw [Tree.start, hts]
    rfl
  have hend : p.after (methodDraft m).text =
      ((linePosition p m).after (lineDraft m).text).after ['\n'] := by
    rw [Draft.text, lexemes_method, textOf_append, textOf_append, Position.after_append, Position.after_append]
    rfl
  have hne : (methodTree (linePosition p m) m).tokens ≠ [] := by simp [hts]
  obtain ⟨k, hk, hstop⟩ := Tree.exists_stop hne
  rw [htokens] at hk
  have hspelled := (@legible_line [] m h).spelled (mem_of_mem_tokensOf hk)
  have hpos := List.length_pos_iff.mpr hspelled.ne_nil
  have hplace : (linePosition p m).offset ≤ k.position.offset ∧
      k.stop ≤ (linePosition p m).offset + (textOf (lineDraft m).lexemes).length ∧ _ :=
    offset_of_mem_marksFrom (mem_tokensOf.mp hk)
  refine ⟨hstart, ?_, ?_, fun l hl => ?_⟩
  · rw [hstart, hstop, Token.stop]
    omega
  · rw [hend, hstop, Position.offset_after, Position.offset_after, Draft.text]
    omega
  · obtain ⟨k, hk, rfl⟩ := Option.map_eq_some_iff.mp hl
    have hmem : k ∈ tokensOf (marksFrom (linePosition p m) (lineDraft m).lexemes) :=
      htokens ▸ List.mem_of_getLast? hk
    have hline : k.position.line = (linePosition p m).line :=
      line_of_mem_marksFrom (newline_not_mem_line h) (mem_tokensOf.mp hmem)
    rw [hend, Position.line_after, Position.line_after, hline, List.count_singleton_self]
    omega

lemma commentsFrom_stand {b : Comment} (hb : b ∈ commentsFrom p m) :
    p.offset ≤ b.position.offset ∧ b.position.offset < (linePosition p m).offset ∧ p.line ≤ b.position.line := by
  have hplace : p.offset ≤ b.position.offset ∧
      b.position.offset + b.text.length ≤ p.offset + (textOf (commentLexemes m.comments)).length ∧
        p.line ≤ b.position.line := offset_of_mem_marksFrom (mem_commentsOf.mp hb)
  have hne : b.text ≠ [] := by
    obtain ⟨c, -, hc⟩ := mem_comments (mem_of_mem_commentsOf hb)
    simp [hc]
  have hpos := List.length_pos_iff.mpr hne
  rw [linePosition, Position.offset_after]
  omega

/-- The trees of a body begin behind the place where it begins. -/
lemma tree_body_stands (h : ∀ m ∈ ms, PrintableMethod m) {t : Tree} (ht : t ∈ (bodyDraft ms).trees p) :
    p.offset ≤ t.start ∧ t.start < t.stop := by
  induction ms generalizing p with
  | nil => cases ht
  | cons m ms ih =>
    rw [List.forall_mem_cons] at h
    obtain ⟨hstart, hlt, -, -⟩ := methodTree_stands h.1 p
    rw [trees_body_cons] at ht
    rcases List.mem_cons.mp ht with rfl | ht
    · refine ⟨?_, hlt⟩
      rw [hstart, linePosition, Position.offset_after]
      omega
    · obtain ⟨hle, hlt⟩ := ih h.2 ht
      rw [Position.offset_after] at hle
      exact ⟨by omega, hlt⟩

/-- Each comment of a body stands before a method, or behind it on another line. -/
lemma body_apart (h : ∀ m ∈ ms, PrintableMethod m) {t : Tree} {b : Comment} (ht : t ∈ (bodyDraft ms).trees p)
    (hb : b ∈ commentsOf (marksFrom p (bodyDraft ms).lexemes)) :
    b.position.offset < t.start ∨ t.stop ≤ b.position.offset ∧ ∀ l ∈ t.lastLine, l < b.position.line := by
  induction ms generalizing p with
  | nil => cases ht
  | cons m ms ih =>
    rw [List.forall_mem_cons] at h
    obtain ⟨hstart, -, hstop, hline⟩ := methodTree_stands h.1 p
    rw [trees_body_cons] at ht
    rw [comments_body_cons] at hb
    rcases List.mem_append.mp hb with hb | hb
    · have hbefore := commentsFrom_stand hb
      left
      rcases List.mem_cons.mp ht with rfl | ht
      · omega
      · have hle := (tree_body_stands h.2 ht).1
        have hlt := (methodTree_stands h.1 p).2.1
        omega
    · rcases List.mem_cons.mp ht with rfl | ht
      · obtain ⟨hle, -, hle'⟩ := offset_of_mem_marksFrom (mem_commentsOf.mp hb)
        have hoffset : _ ≤ b.position.offset := hle
        have hline' : _ ≤ b.position.line := hle'
        right
        refine ⟨by omega, fun l hl => ?_⟩
        have hlt := hline l hl
        omega
      · exact ih h.2 ht hb

/-- The text of a comment is what was printed. -/
lemma inner_remark {c : List CodePoint} (h : IsRemark c) (p : Position) :
    Comment.inner ⟨("// " ++ Text.charText c).toList, p⟩ = c := by
  have htrim : Text.trim (.char '/' :: .char '/' :: .char ' ' :: c) = .char '/' :: .char '/' :: .char ' ' :: c := by
    refine Text.trim_eq (by rintro q ⟨⟩; decide) fun q hq => h.tail q ?_
    rwa [List.getLast?_cons_of_ne_nil, List.getLast?_cons_of_ne_nil, List.getLast?_cons_of_ne_nil h.ne] at hq
    · simp
    · simp
  have hlead : Text.trimLead (.char ' ' :: c) = c :=
    (List.dropWhile_cons_of_pos (by decide)).trans (Text.trimLead_eq h.lead)
  have hbody : Text.trim (.char ' ' :: c) = c := by
    have hc := Text.trim_eq h.lead h.tail
    rw [Text.trim, Text.trimLead_eq h.lead] at hc
    rw [Text.trim, hlead, hc]
  have hslashes : (CodePoint.char '/' :: .char '/' :: .char ' ' :: c).dropWhile (· == .char '/') =
      .char ' ' :: c := by simp
  have hpoints : Text.points ('/' :: '/' :: ' ' :: Text.chars c) = .char '/' :: .char '/' :: .char ' ' :: c :=
    congrArg (CodePoint.char '/' :: CodePoint.char '/' :: CodePoint.char ' ' :: ·) (Text.points_chars h.plain)
  rw [Comment.inner, toList_remark, hpoints, commentText]
  simp only [htrim, hslashes, hbody]
  rfl

lemma inner_comments {cs : List (List CodePoint)} (h : ∀ c ∈ cs, IsRemark c) (p : Position) :
    (commentsOf (marksFrom p (commentLexemes cs))).map Comment.inner = cs := by
  induction cs generalizing p with
  | nil => rfl
  | cons c cs ih =>
    rw [List.forall_mem_cons] at h
    show Comment.inner ⟨("// " ++ Text.charText c).toList, p⟩ :: (commentsOf (marksFrom _ (commentLexemes cs))).map _ = _
    rw [inner_remark h.1, ih h.2]

/-- The text of a type is what was printed. -/
lemma text_typeTree {type : List CodePoint} (h : Text.hasHalf type = false) (p : Position) :
    (Tree.text (.node .messageType ((Draft.lex (typeLexemes (Text.chars type))).trees p)) : List CodePoint) = type := by
  rw [Tree.text, Tree.tokens, Tree.tokensAll_eq, Draft.tokens_eq, Draft.lexemes_lex,
    flatMap_text_tokensOf fun l hl => mem_type hl, textOf_type, String.toList_ofList, Text.points_chars h]

/-- A method is shown as it was printed. -/
lemma shown_method (h : PrintableMethod m) (p q : Position) :
    shown (methodTree q m, commentsFrom p m) = parts m := by
  have hcomments : ((commentsFrom p m).map Comment.inner).filter (· != []) = m.comments := by
    rw [commentsFrom, inner_comments h.comments, List.filter_eq_self]
    exact fun c hc => by simpa using (h.comments c hc).ne
  have hname : declaredName (methodTree q m).children = m.name := by
    show String.ofList (m.name.toList ++ []) = m.name
    rw [List.append_nil, String.ofList_toList]
  have htypes : declaredTypes (methodTree q m).children = (m.request, m.response) := by
    obtain ⟨r, hrequest⟩ : ∃ r, (methodTree q m).children[3]? =
        some (.node .messageType ((Draft.lex (typeLexemes (Text.chars m.request))).trees r)) := ⟨_, rfl⟩
    obtain ⟨r', hresponse⟩ : ∃ r, (methodTree q m).children[7]? =
        some (.node .messageType ((Draft.lex (typeLexemes (Text.chars m.response))).trees r)) := ⟨_, rfl⟩
    rw [declaredTypes, hrequest, hresponse, Option.map_some, Option.map_some, Option.getD_some, Option.getD_some,
      text_typeTree h.plain.1, text_typeTree h.plain.2]
  rw [shown, hcomments, hname, htypes, parts]

lemma isUnary_methodTree (q : Position) : (methodTree q m).isUnary = true := by
  have hany : ∀ cs : List Tree, (cs.any fun c => c.piece = .token (.keyword .kwStream)) =
      (cs.map Tree.piece).any fun k => k = .token (.keyword .kwStream) := fun cs => by
    rw [List.any_map]
    rfl
  rw [methodTree, Tree.isUnary, hany, (lineDraft m).pieces_eq, pieces_line]
  decide

/-- Each method of a body is collected with its comments. -/
lemma collect_body (h : ∀ m ∈ ms, PrintableMethod m) (p : Position) :
    (collect [] ((bodyDraft ms).trees p) (commentsOf (marksFrom p (bodyDraft ms).lexemes))).map shown =
      ms.map parts := by
  induction ms generalizing p with
  | nil => rfl
  | cons m ms ih =>
    rw [List.forall_mem_cons] at h
    obtain ⟨hstart, hlt, hstop, -⟩ := methodTree_stands h.1 p
    have hbefore : ∀ b ∈ commentsFrom p m,
        decide (b.position.offset < (methodTree (linePosition p m) m).start) = true := by
      intro b hb
      rw [hstart]
      exact decide_eq_true (commentsFrom_stand hb).2.1
    have hbehind : ∀ b ∈ (commentsOf (marksFrom (p.after (methodDraft m).text) (bodyDraft ms).lexemes)).head?,
        ¬ decide (b.position.offset < (methodTree (linePosition p m) m).start) = true := by
      intro b hb
      have hle : _ ≤ b.position.offset :=
        (offset_of_mem_marksFrom (mem_commentsOf.mp (List.mem_of_mem_head? hb))).1
      rw [decide_eq_true_eq]
      omega
    have hrest := ih h.2 (p.after (methodDraft m).text)
    rw [trees_body_cons, comments_body_cons, collect, if_neg (by simp [methodTree, Tree.piece]),
      isUnary_methodTree, List.takeWhile_append_of_pos hbefore, List.dropWhile_append_of_pos hbefore]
    generalize commentsOf (marksFrom (p.after (methodDraft m).text) (bodyDraft ms).lexemes) = later at hbehind hrest ⊢
    have hsplit : later.takeWhile (·.position.offset < (methodTree (linePosition p m) m).start) = [] ∧
        later.dropWhile (·.position.offset < (methodTree (linePosition p m) m).start) = later := by
      cases later with
      | nil => exact ⟨rfl, rfl⟩
      | cons b later => exact ⟨List.takeWhile_cons_of_neg (hbehind b rfl), List.dropWhile_cons_of_neg (hbehind b rfl)⟩
    rw [hsplit.1, hsplit.2, List.nil_append, List.append_nil, if_pos rfl, List.singleton_append, List.map_cons,
      hrest, shown_method h.1, List.map_cons]

/-- Where the opening brace of a printed service stands. -/
def bracePosition (s : Service) : Position := (Position.start.after (titleDraft s).text).after [' ']

/-- Where the body of a printed service begins. -/
def bodyPosition (s : Service) : Position := Position.start.after (headDraft s).text

/-- Where the closing brace of a printed service stands. -/
def endPosition (s : Service) : Position := Position.start.after (headDraft s ++ bodyDraft s.methods).text

lemma bodyPosition_eq (s : Service) : bodyPosition s = ((bracePosition s).after ['\x7b']).after ['\n'] := by
  rw [bodyPosition, headDraft, Draft.text_append, Position.after_append]
  rfl

lemma endPosition_eq (s : Service) : endPosition s = (bodyPosition s).after (bodyDraft s.methods).text := by
  rw [endPosition, Draft.text_append, Position.after_append]
  rfl

def braceTree (s : Service) : Tree := .leaf ⟨.openBrace, ['\x7b'], bracePosition s⟩

def endTree (s : Service) : Tree := .leaf ⟨.closeBrace, ['\x7d'], endPosition s⟩

lemma isService_members (s : Service) : ∃ keyword title,
    IsService ((memberDraft s).trees .start) keyword title (braceTree s)
        ((bodyDraft s.methods).trees (bodyPosition s)) (endTree s) ∧ title.text = s.name := by
  refine ⟨_, .node .serviceName [.leaf ⟨.ident, s.name.toList, _⟩], ⟨rfl, rfl, rfl, rfl, fun e he => ?_, rfl⟩, ?_⟩
  · have hpiece := List.mem_map_of_mem (f := Tree.piece) he
    rw [(bodyDraft s.methods).pieces_eq, pieces_body] at hpiece
    obtain ⟨m, -, hm⟩ := List.mem_map.mp hpiece
    simp [← hm]
  · show String.ofList (s.name.toList ++ []) = s.name
    rw [List.append_nil, String.ofList_toList]

lemma comments_service (s : Service) : commentsOf (marksFrom .start (serviceDraft s).lexemes) =
    commentsOf (marksFrom (bodyPosition s) (bodyDraft s.methods).lexemes) := by
  have hlexemes : (serviceDraft s).lexemes =
      (headDraft s).lexemes ++ ((bodyDraft s.methods).lexemes ++ [signLexeme .closeBrace '\x7d']) := by
    simp [serviceDraft, memberDraft]
  have hhead : commentsOf (marksFrom .start (headDraft s).lexemes) = [] := rfl
  rw [hlexemes, marksFrom_append, marksFrom_append, commentsOf_append, commentsOf_append, hhead, List.nil_append]
  exact List.append_nil _

/-- A comment stands alone if each element comes behind it, or before it on another line. -/
lemma standsAlone_of_apart {b : Comment} {elements : List Tree} (h : ∀ e ∈ elements,
    b.position.offset < e.start ∧ e.start < e.stop ∨
      e.stop ≤ b.position.offset ∧ ∀ l ∈ e.lastLine, l < b.position.line) : b.standsAlone elements = true := by
  have hany : (elements.any fun e => e.start ≤ b.position.offset && b.position.offset < e.stop) = false := by
    rw [List.any_eq_false]
    intro e he
    have hplace := h e he
    simp only [Bool.and_eq_true, decide_eq_true_eq]
    omega
  rw [Comment.standsAlone, hany, Bool.not_false, Bool.true_and]
  cases hlast : (elements.filter fun e => e.stop ≤ b.position.offset).getLast? with
  | none => rfl
  | some e =>
    have hmem := List.mem_filter.mp (List.mem_of_getLast? hlast)
    have hstop : e.stop ≤ b.position.offset := of_decide_eq_true hmem.2
    rcases h e hmem.1 with hbehind | ⟨-, hline⟩
    · omega
    · simp only [bne_iff_ne]
      intro he
      exact Nat.lt_irrefl _ (hline _ he)

/-- All comments of a printed service belong to its body. -/
lemma bodyComments_members (h : PrintableService s) :
    bodyComments ((memberDraft s).trees .start)
        (commentsOf (marksFrom (bodyPosition s) (bodyDraft s.methods).lexemes)) =
      commentsOf (marksFrom (bodyPosition s) (bodyDraft s.methods).lexemes) := by
  obtain ⟨keyword, title, hs, -⟩ := isService_members s
  have hbrace : (braceTree s).stop = (bracePosition s).offset + 1 := rfl
  have hend : (endTree s).start = (endPosition s).offset := rfl
  have hfirst : (braceTree s).lastLine = some (bracePosition s).line := rfl
  have hbody : (bodyPosition s).offset = (bracePosition s).offset + 2 ∧
      (bodyPosition s).line = (bracePosition s).line + 1 := by
    rw [bodyPosition_eq]
    exact ⟨rfl, rfl⟩
  rw [hs.bodyComments_eq, List.filter_eq_self]
  intro b hb
  have hplace : (bodyPosition s).offset ≤ b.position.offset ∧
      b.position.offset + b.text.length ≤ (bodyPosition s).offset + (bodyDraft s.methods).text.length ∧
        (bodyPosition s).line ≤ b.position.line := offset_of_mem_marksFrom (mem_commentsOf.mp hb)
  have hpos : 0 < b.text.length :=
    List.length_pos_iff.mpr ((@legible_body [] _ h.methods).comment_ne_nil (mem_of_mem_commentsOf hb))
  have halone : b.standsAlone (braceTree s :: (bodyDraft s.methods).trees (bodyPosition s)) = true := by
    apply standsAlone_of_apart
    intro e he
    rcases List.mem_cons.mp he with rfl | he
    · right
      rw [hbrace, hfirst]
      refine ⟨by omega, ?_⟩
      rintro l ⟨⟩
      omega
    · rcases body_apart h.methods he hb with hbefore | hbehind
      · exact Or.inl ⟨hbefore, (tree_body_stands h.methods he).2⟩
      · exact Or.inr hbehind
  rw [halone, Bool.and_true, Bool.and_eq_true, decide_eq_true_eq, decide_eq_true_eq, hbrace, hend, endPosition_eq,
    Position.offset_after]
  omega

lemma parts_injective : Function.Injective parts := by
  rintro ⟨name, request, response, comments, hne⟩ ⟨name', request', response', comments', hne'⟩ he
  simpa [parts, and_assoc] using he

/-- A printed service is extracted. -/
lemma parse_service (h : PrintableService s) : ∃ tree, parse (String.ofList (serviceDraft s).text) = .ok tree ∧
    ¬ tree.EndsInBlock ∧ (extract tree).1 = .ok [s] := by
  have hread := read_service h
  rw [comments_service] at hread
  generalize hcomments : commentsOf (marksFrom (bodyPosition s) (bodyDraft s.methods).lexemes) = comments at hread
  obtain ⟨_, ms, -, hms, hsound, -, hmarks⟩ := read_sound hread
  have hne : ∀ c ∈ comments, c.text ≠ [] := hmarks ▸ hms.comment_ne_nil
  refine ⟨_, parse_eq_ok_iff.mpr ⟨_, _, by rwa [String.toList_ofList], rfl⟩, ?_, ?_⟩
  · rw [endsInBlock_toNode]
    rintro ⟨cs, d, r, hitem, hd, hpiece, hr⟩
    cases hitem
    cases hd
    cases hpiece
    exact absurd hr (by decide)
  · obtain ⟨keyword, title, hs, htitle⟩ := isService_members s
    have hservice : (Proto.Tree.node .serviceDef ((memberDraft s).trees .start)).Sound :=
      (hsound.child (List.mem_singleton_self _)).child (List.mem_singleton_self _)
    obtain ⟨t, ht, hname, hmethods⟩ := readEntity_collect hservice hs hne
    rw [extract_file hsound hne]
    show (inOrder [readEntity ((Proto.Tree.node .serviceDef ((memberDraft s).trees .start)).toNode comments)]).1 = .ok [s]
    rw [← hcomments, bodyComments_members h, collect_body h.methods] at hmethods
    have hdeclared : declaredName ((memberDraft s).trees .start) = s.name := by
      rw [hs.children]
      exact htitle
    have hsame : t = s := by
      obtain ⟨name, methods, hname_ne⟩ := t
      obtain rfl : name = s.name := hname.trans hdeclared
      obtain rfl : methods = s.methods := parts_injective.list_map hmethods
      rfl
    generalize readEntity ((Proto.Tree.node .serviceDef ((memberDraft s).trees .start)).toNode comments) = given at ht
    obtain ⟨found, log⟩ := given
    obtain rfl : found = .ok (some t) := ht
    rw [hsame]
    rfl

/-- Services that are printed one behind the other are extracted again, in order and with all their methods and
comments. -/
theorem extract_print {ss : List Service} (h : ∀ s ∈ ss, PrintableService s) :
    ∃ tree, parse (printServices ss) = .ok tree ∧ (extract tree).1 = .ok ss := by
  induction ss with
  | nil => exact ⟨.mk Rule.file.name [] none [], rfl, rfl⟩
  | cons s ss ih =>
    rw [List.forall_mem_cons] at h
    obtain ⟨first, hfirst, hopen, hextract⟩ := parse_service h.1
    obtain ⟨second, hsecond, hrest⟩ := ih h.2
    have htext : printServices (s :: ss) = String.ofList (serviceDraft s).text ++ "\n" ++ printServices ss := by
      have hservice : printService s = String.ofList (serviceDraft s).text ++ "\n" := by
        rw [← String.toList_inj, text_service]
        simp
      rw [printServices, List.map_cons, String.join_cons, hservice]
      rfl
    obtain ⟨tree, htree, hchildren⟩ := (parse_append hfirst hsecond).1 fun hboth => hopen hboth.1
    refine ⟨tree, htext ▸ htree, ?_⟩
    exact extract_append hchildren hextract hrest

/-- Names that are keywords or begin with them, the same method twice, types with and without a dot before
them, and comments that look like other things. -/
def oddServices : List Service :=
  [⟨"service", [⟨"rpc", "streamW.stream", ".stream.rpc", ["/* \x7b", "x // \"", "\x7d"], by decide⟩,
      ⟨"returnsZ", "service", "_1", [], by decide⟩, ⟨"returnsZ", "service", "_1", [], by decide⟩], by decide⟩,
    ⟨"stream", [], by decide⟩]

theorem oddServices_printed : (∀ s ∈ oddServices, PrintableService s) ∧
    ∃ tree, parse (printServices oddServices) = .ok tree ∧ (extract tree).1 = .ok oddServices := by
  have hprintable : ∀ s ∈ oddServices, PrintableService s := by decide +kernel
  exact ⟨hprintable, extract_print hprintable⟩

end Stubsmith.Service
