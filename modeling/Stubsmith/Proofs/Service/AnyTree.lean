import Stubsmith.Proofs.Service.Findings
import Stubsmith.Proofs.Writer.Rendering

/-!
# Trees of any form

Whatever a tree looks like, extraction reads plain data from it: of each entity with the keyword of a service and a
name, the name and the elements in the form of plain methods, each with the comments before it. The data passes the
check of services, which gives the services that are extracted, unless half a character stands in a text that is read as
a name. No name and no comment among the services is empty, so each of them can be rendered.
-/
namespace Stubsmith.Service

open Proto (Node)
open Text (CodePoint)

variable {e : Node} {es : List Node} {name : String} {waiting : List (List CodePoint)} {m : Method}
variable {service : List CodePoint} {member : Node × List (List CodePoint)}

/-- The elements with children, each with the texts of the comments that stand between it and the one before. -/
def gathered : (waiting : List (List CodePoint)) → List Node → List (Node × List (List CodePoint))
  | _, [] => []
  | waiting, e :: es =>
    if e.hasChildren then (e, waiting) :: gathered [] es
    else gathered (if e.isComment then waiting ++ [commentText e.value] else waiting) es

/-- The element has the form of a plain method: it has no kind or that of a method, its slots are there, with their
kinds if it has one, and its name is not empty. -/
def isPlain (e : Node) : Bool :=
  (e.kind == [] || e.kind == methodKind) &&
    methodSlots.all (fun slot => e.children[slot.1]?.any fun c : Node => e.kind == [] || c.kind == slot.2) &&
    slotText e 1 != []

/-- The elements of an entity in the form of plain methods, with the comments before them. -/
def plainElements (entity : Node) : List (Node × List (List CodePoint)) :=
  (gathered [] (entity.children.drop headLength)).filter (isPlain ·.1)

/-- The data of a method. -/
def methodData (member : Node × List (List CodePoint)) : Value :=
  .mapping [("name", .text (slotText member.1 1)), ("request_type", .text (slotText member.1 3)),
    ("response_type", .text (slotText member.1 7)), ("comments", .list ((member.2.filter (· != [])).map .text))]

/-- The entity declares a service: it has the keyword of one, and a name. -/
def isService (entity : Node) : Bool :=
  entity.hasChildren && slotText entity 0 == "service" && slotText entity 1 != []

/-- The data of a service. -/
def serviceData (entity : Node) : Value :=
  .mapping [("name", .text (slotText entity 1)), ("methods", .list ((plainElements entity).map methodData))]

/-- The entities of a tree that declare a service. An entity is the first child of a child of the root. -/
def entities (tree : Node) : List Node := (tree.children.filterMap (·.children.head?)).filter isService

/-- The data of the services of a tree. -/
def descriptions (tree : Node) : List Value := (entities tree).map serviceData

/-- The texts that are read as names in an entity: those of its methods and its own. -/
def namesIn (entity : Node) : List (List CodePoint) :=
  (plainElements entity).map (fun member => slotText member.1 1) ++ [slotText entity 1]

/-- The texts that are read as names in a tree. -/
def namesOf (tree : Node) : List (List CodePoint) := (entities tree).flatMap namesIn

/-- What is said of a name with half a character in it. -/
def halfName : List Issue := [⟨.stringUnicode, [.field "name"]⟩]

lemma each_of_forall₂ {α : Type} {check : Value → Checked α} {vs : List Value} {as : List α}
    (h : List.Forall₂ (fun v a => check v = .ok a) vs as) (i : Int) : Checked.each check i vs = .ok as := by
  induction h generalizing i with
  | nil => rfl
  | cons hv _ ih =>
    rw [Checked.each, hv, ih]
    rfl

lemma required_eq_ok {α : Type} {check : Value → Checked α} {entries : List (String × Value)} {v : Value} {a : α}
    (hlookup : entries.lookup name = some v) (hv : check v = .ok a) : required check name entries = .ok a := by
  rw [required, hlookup]
  simp only [hv]
  rfl

lemma listField_eq_ok {α : Type} {check : Value → Checked α} {entries : List (String × Value)} {vs : List Value}
    {as : List α} (hlookup : entries.lookup name = some (.list vs))
    (hvs : List.Forall₂ (fun v a => check v = .ok a) vs as) : listField check name entries = .ok as := by
  rw [listField, hlookup]
  simp only [each_of_forall₂ hvs]
  rfl

lemma nameField_eq_ok {entries : List (String × Value)} (hname : name ≠ "")
    (hlookup : entries.lookup "name" = some (.text name)) : nameField entries = .ok ⟨name, hname⟩ :=
  required_eq_ok hlookup (checkName_coe hname)

/-- Data with a name passes the check of methods. -/
lemma checkMethod_data {request response : List CodePoint} {comments : List (List CodePoint)} (hname : name ≠ "") :
    checkMethod (.mapping [("name", .text name), ("request_type", .text request), ("response_type", .text response),
      ("comments", .list (comments.map .text))]) = .ok ⟨name, request, response, comments, hname⟩ := by
  have hcomments : List.Forall₂ (fun v t => checkText v = .ok t) (comments.map .text) comments := by
    rw [List.forall₂_map_left_iff, List.forall₂_same]
    exact fun _ _ => rfl
  rw [checkMethod, nameField_eq_ok hname rfl, required_eq_ok rfl (rfl : checkText (.text request) = _),
    required_eq_ok rfl (rfl : checkText (.text response) = _), listField_eq_ok rfl hcomments]
  rfl

/-- Data with a name and methods that pass their check passes the check of services. -/
lemma checkService_data {methods : List Value} {ms : List Method} (hname : name ≠ "")
    (hmethods : List.Forall₂ (fun v m => checkMethod v = .ok m) methods ms) :
    checkService (.mapping [("name", .text name), ("methods", .list methods)]) = .ok ⟨name, ms, hname⟩ := by
  rw [checkService, nameField_eq_ok hname rfl, listField_eq_ok rfl hmethods]
  rfl

lemma slotsFlaw_eq_none : slotsFlaw e = none ↔
    methodSlots.all (fun slot => e.children[slot.1]?.any fun c : Node => e.kind == [] || c.kind == slot.2) = true := by
  rw [slotsFlaw, List.findSome?_eq_none_iff, List.all_eq_true]
  refine forall₂_congr fun slot _ => ?_
  unfold slotFlaw
  cases e.children[slot.1]? with
  | none => simp
  | some c =>
    by_cases hkind : e.kind = []
    · simp [hkind]
    · simp [hkind]

/-- The method that an element declares under the comments before it. -/
def described (member : Node × List (List CodePoint)) : Checked Method :=
  describeMethod (slotText member.1 1) (slotText member.1 3) (slotText member.1 7) (member.2.filter (· != []))

/-- The service that an entity declares. -/
def declared (entity : Node) : Checked Service :=
  (plainElements entity).mapM described >>= describeService (slotText entity 1)

lemma readMethod_isPlain (h : isPlain e = true) : readMethod e waiting = .ok (described (e, waiting)) := by
  simp only [isPlain, Bool.and_eq_true, bne_iff_ne] at h
  have hflaw : slotsFlaw e = none := slotsFlaw_eq_none.mpr h.1.2
  simp [readMethod, described, hflaw, h.2]

/-- An element that could be a method and is no plain one is not read. -/
lemma readMethod_not_isPlain (h : isPlain e = false) (hkind : e.kind = [] ∨ e.kind = methodKind) :
    ∃ flaw, readMethod e waiting = .error flaw := by
  unfold readMethod
  cases hflaw : slotsFlaw e with
  | some flaw => exact ⟨flaw, rfl⟩
  | none =>
    have hname : slotText e 1 = [] := by
      by_contra hne
      have hplain : isPlain e = true := by
        simp only [isPlain, Bool.and_eq_true, bne_iff_ne]
        exact ⟨⟨by simpa using hkind, slotsFlaw_eq_none.mp hflaw⟩, hne⟩
      rw [hplain] at h
      cases h
    exact ⟨.unnamed, by simp [hname]⟩

/-- The methods that are read from some elements are those that the plain ones declare. -/
lemma readElements_eq :
    (readElements service waiting es).1 = ((gathered waiting es).filter (isPlain ·.1)).mapM described := by
  induction es generalizing waiting with
  | nil => rfl
  | cons e es ih =>
    rw [gathered, readElements]
    by_cases hchildren : e.hasChildren = true
    · simp only [hchildren, Bool.not_true, Bool.false_eq_true, if_false, if_true]
      by_cases hkind : e.kind = [] ∨ e.kind = methodKind
      · have hcandidate : (e.kind != [] && e.kind != methodKind) = false := by
          rcases hkind with hk | hk
          · simp [hk]
          · simp [hk]
        simp only [hcandidate, Bool.false_eq_true, if_false]
        cases hplain : isPlain e with
        | true =>
          rw [List.filter_cons_of_pos (by simpa using hplain), List.mapM_cons, readMethod_isPlain hplain, ← ih]
          cases described (e, waiting) with
          | error issues => rfl
          | ok m => rfl
        | false =>
          obtain ⟨flaw, hflaw⟩ := @readMethod_not_isPlain e waiting hplain hkind
          rw [List.filter_cons_of_neg (by simpa using hplain), hflaw]
          exact ih
      · rw [not_or] at hkind
        have hplain : isPlain e = false := by simp [isPlain, hkind.1, hkind.2]
        have hother : (e.kind != [] && e.kind != methodKind) = true := by simp [hkind.1, hkind.2]
        rw [List.filter_cons_of_neg (by simpa using hplain)]
        simp only [hother, if_true]
        exact ih
    · simp only [Bool.not_eq_true] at hchildren
      simp only [hchildren, Bool.not_false, Bool.false_eq_true, if_false, if_true]
      exact ih

/-- An entity that declares a service is read as the service that it declares. -/
lemma readEntity_isService (h : isService e = true) : (readEntity e).1 = (declared e).map some := by
  simp only [isService, Bool.and_eq_true, beq_iff_eq, bne_iff_ne] at h
  have hkeyword : (slotText e 0 != "service") = false := by simp [h.1.2]
  rw [readEntity, hkeyword, if_neg (by simp), if_neg h.2, declared, plainElements, ← readElements_eq]
  generalize readElements (slotText e 1) [] (e.children.drop headLength) = found
  obtain ⟨methods, log⟩ := found
  cases methods <;> rfl

/-- A statement is read as the service that its first child declares, if it declares one. -/
lemma readStatement_eq (statement : Node) : (readStatement statement).1 =
    match statement.children.head?.filter isService with
    | some entity => (declared entity).map some
    | none => .ok none := by
  unfold readStatement
  cases statement.children with
  | nil => rfl
  | cons entity others =>
    rw [List.head?_cons, Option.filter_some]
    cases hservice : isService entity with
    | true =>
      have hchildren : entity.hasChildren = true := by
        simp only [isService, Bool.and_eq_true] at hservice
        exact hservice.1.1
      simp [hchildren, readEntity_isService hservice]
    | false =>
      by_cases hchildren : entity.hasChildren = true
      · have hread : (readEntity entity).1 = .ok none := by
          unfold readEntity
          dsimp only
          split_ifs with hkeyword hname
          · rfl
          · rfl
          · simp_all [isService]
        simp [hchildren, hread]
      · simp [hchildren]

/-- The services of a tree are those that its entities declare. -/
lemma extract_eq (tree : Node) : (extract tree).1 = (entities tree).mapM declared := by
  rw [extract, entities, List.filter_filterMap]
  induction tree.children with
  | nil => rfl
  | cons statement statements ih =>
    have hfirst := readStatement_eq statement
    rw [List.map_cons, List.filterMap_cons]
    generalize readStatement statement = found at hfirst
    obtain ⟨given, log⟩ := found
    simp only at hfirst
    cases hentity : statement.children.head?.filter isService with
    | none =>
      simp only [hentity] at hfirst
      rw [hfirst, inOrder_ok, ih]
      cases (statements.filterMap fun x => x.children.head?.filter isService).mapM declared <;> rfl
    | some entity =>
      simp only [hentity] at hfirst
      rw [hfirst, List.mapM_cons, ← ih]
      cases declared entity with
      | error issues => rfl
      | ok s =>
        rw [Except.map, inOrder_ok]
        rfl

/-- A text without halves that is not empty is a name. -/
lemma exists_name {ps : List CodePoint} (hne : ps ≠ []) (h : Text.hasHalf ps = false) :
    ∃ name : String, name ≠ "" ∧ ps = name := by
  refine ⟨Text.charText ps, ?_, ?_⟩
  · simpa [Text.charText, Text.chars] using hne
  · rw [Text.charText, String.toList_ofList, Text.points_chars h]

lemma described_eq_ok (hplain : isPlain member.1 = true) (h : Text.hasHalf (slotText member.1 1) = false) :
    ∃ m, described member = .ok m ∧ (∀ c ∈ m.comments, c ≠ []) ∧ checkMethod (methodData member) = .ok m := by
  simp only [isPlain, Bool.and_eq_true, bne_iff_ne] at hplain
  obtain ⟨name, hname, htext⟩ := exists_name hplain.2 h
  refine ⟨⟨name, slotText member.1 3, slotText member.1 7, member.2.filter (· != []), hname⟩, ?_, fun c hc => ?_, ?_⟩
  · rw [described, htext, describeMethod_coe hname]
  · simpa using (List.mem_filter.mp hc).2
  · rw [methodData, htext, checkMethod_data hname]

lemma described_eq_error (h : Text.hasHalf (slotText member.1 1) = true) : described member = .error halfName := by
  rw [described, describeMethod, checkName, Text.plain?, if_pos h]
  rfl

/-- A service is declared if no half stands in its names. -/
lemma declared_eq_ok (hservice : isService e = true) (h : ∀ ps ∈ namesIn e, Text.hasHalf ps = false) :
    ∃ s, declared e = .ok s ∧ (∀ m ∈ s.methods, ∀ c ∈ m.comments, c ≠ []) ∧
      checkService (serviceData e) = .ok s := by
  simp only [isService, Bool.and_eq_true, bne_iff_ne] at hservice
  rw [namesIn, List.forall_mem_append, List.forall_mem_map, List.forall_mem_singleton] at h
  obtain ⟨name, hname, htext⟩ := exists_name hservice.2 h.2
  obtain ⟨ms, hms, hall⟩ := @mapM_forall₂ _ _ _ described (plainElements e) _ fun member hmember =>
    described_eq_ok (List.mem_filter.mp hmember).2 (h.1 member hmember)
  obtain ⟨hcomments, hchecked⟩ := (List.forall₂_and_left _ _).mp hall.flip
  refine ⟨⟨name, ms, hname⟩, ?_, hcomments, ?_⟩
  · rw [declared, hms, htext]
    exact describeService_coe hname
  · rw [serviceData, htext]
    exact checkService_data hname (List.forall₂_map_left_iff.mpr hchecked.flip)

lemma declared_eq_error (h : ∃ ps ∈ namesIn e, Text.hasHalf ps = true) : declared e = .error halfName := by
  have hread : ∀ member ∈ plainElements e, Text.hasHalf (slotText member.1 1) = false →
      ∃ m, described member = .ok m ∧ _ := fun member hmember =>
    described_eq_ok (List.mem_filter.mp hmember).2
  by_cases hmethods : ∃ member ∈ plainElements e, Text.hasHalf (slotText member.1 1) = true
  · obtain ⟨member, hmember, hhalf⟩ := hmethods
    have hway : ∀ member ∈ plainElements e, (∃ m, described member = .ok m) ∨ described member = .error halfName := by
      intro member hmember
      cases hhalf : Text.hasHalf (slotText member.1 1) with
      | true => exact Or.inr (described_eq_error hhalf)
      | false => exact Or.inl ((hread member hmember hhalf).imp fun _ => And.left)
    rw [declared, mapM_eq_error hway ⟨member, hmember, described_eq_error hhalf⟩]
    rfl
  · have hplain : ∀ member ∈ plainElements e, Text.hasHalf (slotText member.1 1) = false := by simpa using hmethods
    obtain ⟨ms, hms, -⟩ := mapM_forall₂ fun member hmember => hread member hmember (hplain member hmember)
    have hname : Text.hasHalf (slotText e 1) = true := by
      obtain ⟨ps, hps, hhalf⟩ := h
      rcases List.mem_append.mp hps with hps | hps
      · obtain ⟨member, hmember, rfl⟩ := List.mem_map.mp hps
        exact absurd ⟨member, hmember, hhalf⟩ hmethods
      · rwa [← List.mem_singleton.mp hps]
    rw [declared, hms]
    change describeService (slotText e 1) ms = _
    rw [describeService, checkName, Text.plain?, if_pos hname]
    rfl

/-- Any tree is read safely if no half stands in a text that is read as a name: the data of its services passes the check
and gives what is extracted, there are no empty names and comments in it, and each service is rendered under any base
name. A half in a name makes the check fail. -/
theorem extract_safe (tree : Node) :
    ((∀ ps ∈ namesOf tree, Text.hasHalf ps = false) →
      ∃ ss, (extract tree).1 = .ok ss ∧ Checked.each checkService 0 (descriptions tree) = .ok ss ∧
        ∀ s ∈ ss, s.name ≠ "" ∧ (∀ m ∈ s.methods, m.name ≠ "" ∧ ∀ c ∈ m.comments, c ≠ []) ∧
          ∀ base, ∃ text, Python.render s base = some text) ∧
    ((∃ ps ∈ namesOf tree, Text.hasHalf ps = true) → (extract tree).1 = .error halfName) := by
  rw [extract_eq]
  constructor
  · intro h
    rw [namesOf, List.forall_mem_flatMap] at h
    obtain ⟨ss, hss, hall⟩ := @mapM_forall₂ _ _ _ declared (entities tree) _ fun e he =>
      declared_eq_ok (List.mem_filter.mp he).2 (h e he)
    obtain ⟨hcomments, hchecked⟩ := (List.forall₂_and_left _ _).mp hall.flip
    refine ⟨ss, hss, each_of_forall₂ (List.forall₂_map_left_iff.mpr hchecked.flip) 0, fun s hs =>
      ⟨s.name_ne, fun m hm => ⟨m.name_ne, hcomments s hs m hm⟩, fun base => ?_⟩⟩
    refine Option.ne_none_iff_exists'.mp fun hnone => ?_
    obtain ⟨m, hm, hblank⟩ := Python.render_eq_none.mp hnone
    exact hcomments s hs m hm [] (by simp [hblank]) rfl
  · rintro ⟨ps, hps, hhalf⟩
    obtain ⟨e, he, hname⟩ := List.mem_flatMap.mp hps
    refine mapM_eq_error (fun e he => ?_) ⟨e, he, declared_eq_error ⟨ps, hname, hhalf⟩⟩
    by_cases h : ∃ ps ∈ namesIn e, Text.hasHalf ps = true
    · exact Or.inr (declared_eq_error h)
    · have hplain : ∀ ps ∈ namesIn e, Text.hasHalf ps = false := by simpa using h
      exact Or.inl ((declared_eq_ok (List.mem_filter.mp he).2 hplain).imp fun _ => And.left)

/-- A tree with a service whose name is half a character. -/
def halfNamed : Node :=
  .mk "proto" [] (some 1) [.mk "top_level_def" [] (some 1) [.mk "service_def" [] (some 1)
    [.mk "SERVICE" "service" (some 1) [], .mk "IDENT" [.half 0xD800] (some 1) []]]]

/-- Such a service is not left out: the whole extraction fails in the check of its name. -/
theorem halfNamed_refused : namesOf halfNamed = [[.half 0xD800]] ∧ (extract halfNamed).1 = .error halfName ∧
    ¬ ∃ ss, (extract halfNamed).1 = .ok ss := by
  have hrefused : (extract halfNamed).1 = .error halfName := by rfl
  refine ⟨by decide +kernel, hrefused, ?_⟩
  rintro ⟨ss, hss⟩
  rw [hrefused] at hss
  cases hss

end Stubsmith.Service
