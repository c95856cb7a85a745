import Stubsmith.Proofs.Service.Declaration

/-!
# Methods with and without streams

A file yields one service for each of its service blocks. The methods of a service are its rpcs, and each rpc has two
types, before either of which `stream` may stand. An rpc without `stream` is extracted with its name and its types; one
with `stream` is left out with a warning. Options leave a note that is no warning, and nothing else leaves a trace.
-/
namespace Stubsmith

open Text (CodePoint)

namespace Proto

variable {cs : List Tree}

/-- The text of the first child with a rule. -/
def childText (r : Rule) (cs : List Tree) : String := ((cs.find? (·.piece = .rule r)).map Tree.text).getD ""

/-- The types among some children, each with whether `stream` stands right before it. The first child is taken to
stand behind `stream` if `streamed` says so. -/
def markedTypes : (streamed : Bool) → List Tree → List (Bool × String)
  | _, [] => []
  | streamed, c :: cs =>
    if c.piece = .rule .messageType then (streamed, c.text) :: markedTypes false cs
    else markedTypes (c.piece = .token (.keyword .kwStream)) cs

/-- The methods of a service, with streams or without. -/
def rpcs (service : List Tree) : List Tree := service.filter (·.piece = .rule .method)

/-- The name and the types of a method, if `stream` stands before neither type. -/
def Tree.plain? (rpc : Tree) : Option (String × List CodePoint × List CodePoint) :=
  match markedTypes false rpc.children with
  | [(false, request), (false, response)] => some (childText .methodName rpc.children, request, response)
  | _ => none

/-- The method has `stream` before one of its types. -/
def Tree.isStreaming (rpc : Tree) : Bool := (markedTypes false rpc.children).any (·.1)

/-- The method has `stream` before its first type. -/
def Tree.streamsFirst (rpc : Tree) : Bool := ((markedTypes false rpc.children).head?.map (·.1)).getD false

lemma Tree.exists_node {t : Tree} {r : Rule} (h : t.piece = .rule r) : ∃ cs, t = .node r cs := by
  cases t with
  | leaf k => cases h
  | node r cs =>
    cases h
    exact ⟨cs, rfl⟩

/-- The children of a method: two types, before each of which `stream` may stand as a mark. -/
structure IsMethod (cs head mark : List Tree) (request : Tree) (middle mark' : List Tree) (response : Tree)
    (tail : List Tree) : Prop where
  children : cs = head ++ mark ++ request :: middle ++ mark' ++ response :: tail
  head : head.map Tree.piece = [.token (.keyword .kwRpc), .rule .methodName, .token .openParen]
  mark : mark.map Tree.piece ∈ [[], [.token (.keyword .kwStream)]]
  request : request.piece = .rule .messageType
  middle : middle.map Tree.piece = [.token .closeParen, .token (.keyword .kwReturns), .token .openParen]
  mark' : mark'.map Tree.piece ∈ [[], [.token (.keyword .kwStream)]]
  response : response.piece = .rule .messageType
  tail : tail.map Tree.piece ∈ [[.token .closeParen, .rule .block], [.token .closeParen, .token .semicolon]]

lemma Tree.Derives.isMethod (h : (Tree.node .method cs).Derives) :
    ∃ head mark request middle mark' response tail, IsMethod cs head mark request middle mark' response tail := by
  obtain ⟨first, second, last, hpieces, hfirst, hsecond, hlast⟩ := h.method
  obtain ⟨front, back, rfl, hfront, hback⟩ := List.map_eq_append_iff.mp hpieces
  obtain ⟨front, mark', rfl, hfront, hmark'⟩ := List.map_eq_append_iff.mp hfront
  obtain ⟨front, middle, rfl, hfront, hmiddle⟩ := List.map_eq_append_iff.mp hfront
  obtain ⟨head, mark, rfl, hhead, hmark⟩ := List.map_eq_append_iff.mp hfront
  obtain ⟨request, middle, rfl, hrequest, hmiddle⟩ := List.map_eq_cons_iff.mp hmiddle
  obtain ⟨response, tail, rfl, hresponse, htail⟩ := List.map_eq_cons_iff.mp hback
  refine ⟨head, mark, request, middle, mark', response, tail, rfl, hhead, by rwa [hmark], hrequest, hmiddle,
    by rwa [hmark'], hresponse, ?_⟩
  simpa [htail] using hlast

/-- Children that are neither types nor marks are passed over. -/
lemma markedTypes_append {us : List Tree} (vs : List Tree) (htype : .rule .messageType ∉ us.map Tree.piece)
    (hmark : .token (.keyword .kwStream) ∉ us.map Tree.piece) :
    markedTypes false (us ++ vs) = markedTypes false vs := by
  induction us with
  | nil => rfl
  | cons u us ih =>
    rw [List.map_cons, List.mem_cons, not_or] at htype hmark
    rw [List.cons_append, markedTypes, if_neg (Ne.symm htype.1), decide_eq_false (Ne.symm hmark.1),
      ih htype.2 hmark.2]

section Method

variable {head mark middle mark' tail : List Tree} {request response : Tree}

/-- A type behind its mark. -/
lemma markedTypes_mark (hmark : mark.map Tree.piece ∈ [[], [.token (.keyword .kwStream)]])
    (htype : request.piece = .rule .messageType) (vs : List Tree) :
    markedTypes false (mark ++ request :: vs) = (!mark.isEmpty, request.text) :: markedTypes false vs := by
  simp only [List.mem_cons, List.not_mem_nil, or_false, List.map_eq_nil_iff, List.map_eq_singleton_iff] at hmark
  rcases hmark with rfl | ⟨m, rfl, hm⟩
  · simp [markedTypes, htype]
  · simp [markedTypes, htype, hm]

/-- A method has two types, each with its mark. -/
lemma IsMethod.markedTypes_eq (h : IsMethod cs head mark request middle mark' response tail) :
    markedTypes false cs = [(!mark.isEmpty, request.text), (!mark'.isEmpty, response.text)] := by
  have htail : markedTypes false tail = [] := by
    have hplain := h.tail
    simp only [List.mem_cons, List.not_mem_nil, or_false] at hplain
    rw [← List.append_nil tail, markedTypes_append]
    · rfl
    · rcases hplain with hp | hp <;> rw [hp] <;> decide
    · rcases hplain with hp | hp <;> rw [hp] <;> decide
  calc markedTypes false cs
      = markedTypes false (head ++ (mark ++ request :: (middle ++ (mark' ++ response :: tail)))) := by
        simp [h.children]
    _ = [(!mark.isEmpty, request.text), (!mark'.isEmpty, response.text)] := by
        rw [markedTypes_append _ (by rw [h.head]; decide) (by rw [h.head]; decide), markedTypes_mark h.mark h.request,
          markedTypes_append _ (by rw [h.middle]; decide) (by rw [h.middle]; decide),
          markedTypes_mark h.mark' h.response, htail]

/-- The name of a method. -/
lemma IsMethod.getElem_one (h : IsMethod cs head mark request middle mark' response tail) :
    ∃ name : Tree, name.piece = .rule .methodName ∧ cs[1]? = some name ∧ childText .methodName cs = name.text := by
  have hhead := h.head
  simp only [List.map_eq_cons_iff, List.map_eq_nil_iff] at hhead
  obtain ⟨rpc, _, rfl, hrpc, name, _, rfl, hname, opening, _, rfl, -, rfl⟩ := hhead
  exact ⟨name, hname, by simp [h.children], by simp [childText, h.children, hrpc, hname]⟩

/-- What stands in the place of the first type: the type, or its mark. -/
lemma IsMethod.getElem_three (h : IsMethod cs head mark request middle mark' response tail) :
    cs[3]? = some (mark.headD request) := by
  have hlength : head.length = 3 := by simpa using congrArg List.length h.head
  rw [h.children, List.append_assoc, List.append_assoc, List.append_assoc, List.getElem?_append_right hlength.le,
    hlength]
  cases mark <;> rfl

/-- What stands in the place of the second type if the first one has no mark: the type, or its mark. -/
lemma IsMethod.getElem_seven (h : IsMethod cs head [] request middle mark' response tail) :
    cs[7]? = some (mark'.headD response) := by
  have hhead : head.length = 3 := by simpa using congrArg List.length h.head
  have hmiddle : middle.length = 3 := by simpa using congrArg List.length h.middle
  rw [h.children, List.append_nil, List.append_assoc, List.getElem?_append_right (by simp [hhead, hmiddle]),
    List.length_append, List.length_cons, hhead, hmiddle]
  cases mark' <;> rfl

/-- The keyword is among the children of a method only as a mark. -/
lemma IsMethod.mem_pieces (h : IsMethod cs head mark request middle mark' response tail) :
    Piece.token (.keyword .kwStream) ∈ cs.map Tree.piece ↔ mark ≠ [] ∨ mark' ≠ [] := by
  have hmem : ∀ us : List Tree, us.map Tree.piece ∈ [[], [.token (.keyword .kwStream)]] →
      (Piece.token (.keyword .kwStream) ∈ us.map Tree.piece ↔ us ≠ []) := by
    intro us hus
    simp only [List.mem_cons, List.not_mem_nil, or_false] at hus
    rcases hus with hus | hus
    · simp [List.map_eq_nil_iff.mp hus]
    · rw [hus]
      simp only [List.mem_singleton, true_iff]
      rintro rfl
      cases hus
  have htail : Piece.token (.keyword .kwStream) ∉ tail.map Tree.piece := by
    have hlast := h.tail
    simp only [List.mem_cons, List.not_mem_nil, or_false] at hlast
    rcases hlast with hlast | hlast <;> rw [hlast] <;> decide
  rw [h.children]
  simp only [List.map_append, List.map_cons, List.mem_append, List.mem_cons, hmem mark h.mark, hmem mark' h.mark',
    htail, h.head, h.request, h.middle, h.response, reduceCtorEq, List.not_mem_nil, or_false, false_or,
    Piece.token.injEq, Terminal.keyword.injEq]

/-- A method that does not stream has no mark. -/
lemma IsMethod.isUnary_eq (h : IsMethod cs head mark request middle mark' response tail) :
    (Tree.node .method cs).isUnary = !(Tree.node .method cs).isStreaming := by
  have hunary : (Tree.node .method cs).isUnary = true ↔ Piece.token (.keyword .kwStream) ∉ cs.map Tree.piece := by
    simp [Tree.isUnary]
  rw [Bool.eq_iff_iff, hunary, h.mem_pieces, Tree.isStreaming, Tree.children, h.markedTypes_eq]
  simp

end Method

/-- A method is plain if it does not stream, and its name and its types then stand at their places. -/
lemma Tree.Derives.plain?_eq (h : (Tree.node .method cs).Derives) :
    (Tree.node .method cs).plain? =
      if (Tree.node .method cs).isUnary then some (declaredName cs, declaredTypes cs) else none := by
  obtain ⟨head, mark, request, middle, mark', response, tail, h⟩ := h.isMethod
  obtain ⟨name, -, hname, htext⟩ := h.getElem_one
  rw [h.isUnary_eq, Tree.plain?, Tree.isStreaming, Tree.children, h.markedTypes_eq]
  cases mark with
  | cons m ms => rfl
  | nil =>
    cases mark' with
    | cons m ms => rfl
    | nil => simp [declaredName, declaredTypes, hname, h.getElem_three, h.getElem_seven, htext]

end Proto

namespace Service

open Proto

variable {cs ts : List Tree} {comments bs : List Comment} {name : String} {waiting : List (List CodePoint)}
variable {ns : List Node}

/-- The warning for a method that streams: it does not have a type in the place of the first type that streams. -/
def streamWarning (service : String) (rpc : Tree) : LogRecord :=
  ⟨.warning, .extraction, "Skipping element of service " ++ service ++ " (line " ++
    lineText (rpc.line.map Int.ofNat) ++ "): " ++
    (Flaw.unexpected (if rpc.streamsFirst then 3 else 7) "message_type" "STREAM").message⟩

/-- What is said of a child of a service: a warning of a method that streams, a note of an option, and nothing
of any other. -/
def remarks (service : String) (element : Tree) : List LogRecord :=
  if element.piece = .rule .method then
    if element.isStreaming then [streamWarning service element] else []
  else if element.piece = .rule .optionDecl then
    [⟨.debug, .extraction, "Ignoring " ++ Rule.optionDecl.name ++ " in service " ++ service⟩]
  else []

/-- Another piece in the place of one. -/
lemma slotFlaw_other {i : Nat} {t : Tree} {kind : String} (h : cs[i]? = some t) (hne : t.piece.name ≠ "")
    (hp : t.piece.name ≠ kind) :
    slotFlaw ((Proto.Tree.node .method cs).toNode comments) (i, kind) = some (.unexpected i kind t.piece.name) := by
  have hkind : (Proto.Tree.node .method cs).piece.name ≠ "" := show Piece.name (.rule .method) ≠ "" by decide
  simp [slotFlaw, h, hkind, hp, hne]

/-- `stream` in the place of a type. -/
lemma slotFlaw_stream {i : Nat} {t : Tree} (h : cs[i]? = some t) (hp : t.piece = .token (.keyword .kwStream)) :
    slotFlaw ((Proto.Tree.node .method cs).toNode comments) (i, "message_type") =
      some (.unexpected i "message_type" "STREAM") := by
  have hflaw := @slotFlaw_other cs comments i t "message_type" h (by rw [hp]; decide) (by rw [hp]; decide)
  rw [hflaw, hp]
  rfl

/-- The first flaw of a method that streams is the mark of the first type that does. -/
lemma slotsFlaw_streaming {head mark middle mark' tail : List Tree} {request response : Tree}
    (h : IsMethod cs head mark request middle mark' response tail)
    (hs : (Proto.Tree.node .method cs).isStreaming = true) :
    slotsFlaw ((Proto.Tree.node .method cs).toNode comments) =
      some (.unexpected (if (Proto.Tree.node .method cs).streamsFirst then 3 else 7) "message_type" "STREAM") := by
  obtain ⟨name, hpiece, hname, -⟩ := h.getElem_one
  have hfirst := (@slotFlaw_eq_none cs name comments 1 "rpc_name" hname).mpr (by rw [hpiece]; rfl)
  have hthree := h.getElem_three
  rw [Tree.isStreaming, Tree.children, h.markedTypes_eq] at hs
  rw [slotsFlaw, methodSlots, List.findSome?_cons, hfirst, Tree.streamsFirst, Tree.children, h.markedTypes_eq]
  cases mark with
  | cons m ms =>
    have hm : m.piece = .token (.keyword .kwStream) ∧ ms = [] := by simpa using h.mark
    simp [slotFlaw_stream hthree hm.1]
  | nil =>
    -- The first type stands in its place, so it is the second one that streams.
    have hsecond := (@slotFlaw_eq_none cs request comments 3 "message_type" hthree).mpr (by rw [h.request]; rfl)
    have hseven := h.getElem_seven
    cases mark' with
    | nil => cases hs
    | cons m ms =>
      have hm : m.piece = .token (.keyword .kwStream) ∧ ms = [] := by simpa using h.mark'
      simp [hsecond, slotFlaw_stream hseven hm.1]

lemma remarks_token {e : Tree} {k : Terminal} (h : e.piece = .token k) : remarks name e = [] := by
  simp [remarks, h]

/-- A method leaves a warning if it streams, and nothing else. -/
lemma readElements_method_log (h : (Proto.Tree.node .method cs).Sound) (hc : ∀ c ∈ comments, c.text ≠ []) :
    (readElements name waiting ((Proto.Tree.node .method cs).toNode comments :: ns)).2 =
      remarks name (.node .method cs) ++ (readElements name [] ns).2 := by
  have hchildren : ((Proto.Tree.node .method cs).toNode comments).hasChildren = true :=
    hasChildren_toNode h.derives (by decide) (by decide)
  have hkind : ((Proto.Tree.node .method cs).toNode comments).kind = "rpc" := Tree.kind_toNode
  have hpiece : (Proto.Tree.node .method cs).piece = .rule .method := rfl
  obtain ⟨head, mark, request, middle, mark', response, tail, hmethod⟩ := h.derives.isMethod
  rw [readElements, remarks, if_pos hpiece]
  simp only [hchildren, hkind, methodKind, Bool.not_true, Bool.false_eq_true, if_false, bne_self_eq_false,
    Bool.and_false]
  cases hs : (Proto.Tree.node .method cs).isStreaming with
  | true =>
    have hflaw := @slotsFlaw_streaming cs comments _ _ _ _ _ _ _ hmethod hs
    simp only [readMethod, hflaw]
    rfl
  | false =>
    obtain ⟨m, hm, -⟩ := @readMethod_unary cs comments waiting h hc (by rw [hmethod.isUnary_eq, hs]; rfl)
    rw [hm]
    rfl

/-- An option leaves a note. -/
lemma readElements_option_log (h : (Proto.Tree.node .optionDecl cs).Sound) :
    (readElements name waiting ((Proto.Tree.node .optionDecl cs).toNode comments :: ns)).2 =
      remarks name (.node .optionDecl cs) ++ (readElements name [] ns).2 := by
  have hchildren : ((Proto.Tree.node .optionDecl cs).toNode comments).hasChildren = true :=
    hasChildren_toNode h.derives (by decide) (by decide)
  have hkind : ((Proto.Tree.node .optionDecl cs).toNode comments).kind = Rule.optionDecl.name := Tree.kind_toNode
  have hother : ((Rule.optionDecl.name : List CodePoint) != [] &&
      (Rule.optionDecl.name : List CodePoint) != methodKind) = true := by decide
  have hpiece : (Proto.Tree.node .optionDecl cs).piece = .rule .optionDecl := rfl
  have hremarks : remarks name (.node .optionDecl cs) =
      [⟨.debug, .extraction, "Ignoring " ++ Rule.optionDecl.name ++ " in service " ++ name⟩] := by
    rw [remarks, hpiece, if_neg (by decide), if_pos rfl]
  rw [readElements, hremarks]
  simp only [hchildren, hkind, hother, Bool.not_true, Bool.false_eq_true, if_false, if_true]
  rfl

/-- The elements of a service are remarked on in order, whatever comments are woven between them. -/
lemma readElements_log {k : Token} (hk : k.kind.Spells k.text) (hc : ∀ c ∈ comments, c.text ≠ [])
    (hts : ∀ e ∈ ts, e.Sound ∧ e.piece ∈ [.rule .method, .rule .optionDecl, .token .semicolon]) :
    (readElements name waiting (woven Comment.node (Tree.toNode comments) ts bs ++
        [(Tree.leaf k).toNode comments])).2 = ts.flatMap (remarks name) := by
  induction ts generalizing waiting bs with
  | nil =>
    rw [woven_nil, readElements_comments, readElements_leaf hk]
    rfl
  | cons e es ih =>
    rw [List.forall_mem_cons] at hts
    obtain ⟨⟨hsound, hpiece⟩, hes⟩ := hts
    rw [woven_cons, List.append_assoc, readElements_comments, List.cons_append, List.flatMap_cons]
    simp only [List.mem_cons, List.not_mem_nil, or_false] at hpiece
    rcases hpiece with hp | hp | hp
    · obtain ⟨cs, rfl⟩ := Tree.exists_node hp
      rw [readElements_method_log hsound hc, ih hes]
    · obtain ⟨cs, rfl⟩ := Tree.exists_node hp
      rw [readElements_option_log hsound, ih hes]
    · rw [remarks_token hp]
      cases e with
      | leaf u => rw [readElements_leaf (hsound.spelled u (by simp [Tree.tokens])), ih hes, List.nil_append]
      | node r cs => cases hp

section Entity

variable {keyword title opening closing : Tree} {body : List Tree}

lemma childText_service (h : IsService cs keyword title opening body closing) :
    childText .serviceName cs = title.text := by
  simp [childText, h.children, h.keyword, h.name]

/-- Of a service only its elements are remarked on. -/
lemma flatMap_remarks (h : IsService cs keyword title opening body closing) :
    cs.flatMap (remarks name) = body.flatMap (remarks name) := by
  have htitle : remarks name title = [] := by simp [remarks, h.name]
  simp only [h.children, List.flatMap_cons, List.flatMap_append, List.flatMap_nil, List.append_nil, List.nil_append,
    remarks_token h.keyword, htitle, remarks_token h.opening, remarks_token h.closing]

/-- The plain methods of a service are those without streams. -/
lemma filterMap_plain? (hsound : (Proto.Tree.node .serviceDef cs).Sound)
    (h : IsService cs keyword title opening body closing) :
    (rpcs cs).filterMap Tree.plain? = declaredMethods cs := by
  have hrpcs : rpcs cs = body.filter (·.piece = .rule .method) := by
    simp [rpcs, h.children, h.keyword, h.name, h.opening, h.closing]
  have hbody : (bodyElements cs).filter Tree.isUnary = body.filter Tree.isUnary := by
    rw [h.bodyElements_eq, List.filter_cons_of_neg (by simp [isUnary_token h.opening])]
  rw [hrpcs, declaredMethods, hbody, List.filterMap_filter, ← List.filterMap_eq_map, List.filterMap_filter]
  refine List.filterMap_congr fun e he => ?_
  have hderives := (hsound.child (h.mem_children e (by simp [he]))).derives
  have hpiece := h.body e he
  simp only [List.mem_cons, List.not_mem_nil, or_false] at hpiece
  rcases hpiece with hp | hp | hp
  · obtain ⟨ds, rfl⟩ := Tree.exists_node hp
    rw [if_pos (by simp [Tree.piece]), hderives.plain?_eq]
    rfl
  · obtain ⟨ds, rfl⟩ := Tree.exists_node hp
    rw [if_neg (by simp [hp]), if_neg (by simp [Tree.isUnary])]
  · rw [if_neg (by simp [hp]), if_neg (by simp [isUnary_token hp])]

end Entity

/-- A service is read with its name and its plain methods, and its elements are remarked on in order. -/
lemma readEntity_yields (hsound : (Proto.Tree.node .serviceDef cs).Sound) (hc : ∀ c ∈ comments, c.text ≠ []) :
    (readEntity ((Proto.Tree.node .serviceDef cs).toNode comments)).1.map (Option.map outline) =
        .ok (some (childText .serviceName cs, (rpcs cs).filterMap Tree.plain?)) ∧
      (readEntity ((Proto.Tree.node .serviceDef cs).toNode comments)).2 =
        cs.flatMap (remarks (childText .serviceName cs)) := by
  obtain ⟨keyword, title, opening, body, closing, h⟩ := hsound.derives.service
  constructor
  · rw [readEntity_outline hsound hc, h.declaredName_eq, childText_service h, filterMap_plain? hsound h]
  · obtain ⟨_, hread⟩ := readEntity_woven hsound h hc
    obtain ⟨k, rfl, hk⟩ := h.exists_closing hsound
    rw [hread, flatMap_remarks h, childText_service h]
    exact readElements_log hk hc fun e he => ⟨hsound.child (h.mem_children e (by simp [he])), h.body e he⟩

/-- The warnings among the remarks on a service are those of its methods that stream. -/
lemma filter_remarks : (cs.flatMap (remarks name)).filter (·.level = .warning) =
    ((rpcs cs).filter Tree.isStreaming).map (streamWarning name) := by
  induction cs with
  | nil => rfl
  | cons e es ih =>
    rw [List.flatMap_cons, List.filter_append, ih, remarks, rpcs, rpcs]
    by_cases hm : e.piece = .rule .method
    · by_cases hs : e.isStreaming = true
      · simp [hm, hs, streamWarning]
      · simp [hm, hs]
    · by_cases ho : e.piece = .rule .optionDecl
      · simp [ho]
      · simp [hm, ho]

/-- What an accepted text yields. The file that is read from it has its tokens, and each method in it has two types.
The tree is that of the file. There is one service for each service of the file, with its name and its plain methods in
order. A warning is given of each method that streams, a note of each option of a service, and nothing is said of
anything else. -/
structure Yields (text : List Char) (tree : Node) (file : Tree) (services : List Service)
    (records : List LogRecord) : Prop where
  read : ∃ comments, Proto.read text = .ok (file, comments) ∧ tree = file.toNode comments
  derives : file.Derives
  piece : file.piece = .rule .file
  tokens : ∃ ms, Scanned .start text ms ∧ file.tokens = tokensOf ms
  typed : ∀ service ∈ file.services, ∀ rpc ∈ rpcs service,
    ∃ request response, markedTypes false rpc.children = [request, response]
  outlines : services.map outline = file.services.map fun service =>
    (childText .serviceName service, (rpcs service).filterMap Tree.plain?)
  log : records = file.services.flatMap fun service => service.flatMap (remarks (childText .serviceName service))
  warnings : records.filter (·.level = .warning) = file.services.flatMap fun service =>
    ((rpcs service).filter Tree.isStreaming).map (streamWarning (childText .serviceName service))

/-- The services of an accepted text are its service blocks, with the methods that do not stream. -/
theorem extract_yields {text : String} {tree : Node} (h : parse text = .ok tree) :
    ∃ file services, (extract tree).1 = .ok services ∧ Yields text.toList tree file services (extract tree).2 := by
  obtain ⟨items, ms, hread, hms, hsound, htokens, rfl⟩ := parse_eq_ok h
  have hyields := fun cs hcs => @readEntity_yields cs (commentsOf ms) (service_sound hsound hcs) hms.comment_ne_nil
  have hextract := extract_file hsound hms.comment_ne_nil
  obtain ⟨hviews, hrecords⟩ := inOrder_view fun cs hcs => (hyields cs hcs).1
  rw [← hextract] at hviews hrecords
  have hlog : (extract ((Proto.Tree.node .file items).toNode (commentsOf ms))).2 =
      (Proto.Tree.node .file items).services.flatMap fun service =>
        service.flatMap (remarks (childText .serviceName service)) :=
    hrecords.trans (List.flatMap_congr fun cs hcs => (hyields cs hcs).2)
  obtain ⟨services, hservices, houtlines⟩ := exists_of_map_eq_ok hviews
  refine ⟨.node .file items, services, hservices, ⟨_, hread, rfl⟩, hsound.derives, rfl, ⟨ms, hms, htokens⟩,
    fun service hservice rpc hrpc => ?_, houtlines.symm, hlog, ?_⟩
  · obtain ⟨hmem, hp⟩ := List.mem_filter.mp hrpc
    have hderives := ((service_sound hsound hservice).child hmem).derives
    obtain ⟨cs, rfl⟩ := Tree.exists_node (of_decide_eq_true hp)
    obtain ⟨head, mark, request, middle, mark', response, tail, hmethod⟩ := hderives.isMethod
    exact ⟨_, _, hmethod.markedTypes_eq⟩
  · rw [hlog, List.filter_flatMap]
    exact List.flatMap_congr fun cs _ => filter_remarks

/-- A method with streams between two methods of one name, types over several tokens and with a name that begins with
`stream`, an option, a semicolon, and two services of one name. -/
def streamingServices : String :=
  "service S\x7brpc A(.a . b)returns(streamC);rpc B(stream X)returns(stream Y);option o=1;;rpc A(X)returns(Y);\x7d" ++
  "service S\x7b\x7d"

theorem streamingServices_yield : ∃ (tree : Node) (services : List Service),
    parse streamingServices = .ok tree ∧ (extract tree).1 = .ok services ∧
    services.map (fun s => (s.name, s.methods.map fun m =>
        [m.name, Text.spelled m.request, Text.spelled m.response])) =
      [("S", [["A", ".a.b", "streamC"], ["A", "X", "Y"]]), ("S", [])] ∧
    (extract tree).2.map (·.level) = [.warning, .debug] ∧
    ∃ file, Yields streamingServices.toList tree file services (extract tree).2 := by
  have hcheck : ((parse streamingServices).toOption.bind fun tree => (extract tree).1.toOption.map fun services =>
      (services.map (fun s => (s.name, s.methods.map fun m =>
        [m.name, Text.spelled m.request, Text.spelled m.response])), (extract tree).2.map (·.level))) =
      some ([("S", [["A", ".a.b", "streamC"], ["A", "X", "Y"]]), ("S", [])], [.warning, .debug]) := by
    decide +kernel
  obtain ⟨tree, htree, hfound⟩ := Option.bind_eq_some_iff.mp hcheck
  obtain ⟨found, hservices, hpair⟩ := Option.map_eq_some_iff.mp hfound
  obtain ⟨hmethods, hlevels⟩ := Prod.ext_iff.mp hpair
  have hparse := eq_ok_of_toOption htree
  obtain ⟨file, services, hextracted, hyields⟩ := extract_yields hparse
  cases hextracted.symm.trans (eq_ok_of_toOption hservices)
  exact ⟨tree, found, hparse, hextracted, hmethods, hlevels, file, hyields⟩

end Service

end Stubsmith
