import Stubsmith.Proofs.Writer.Docstring

/-!
# The layout of stub files

Services that are written to one file stand in it whole, in order and two newlines apart. One that cannot be rendered
or encoded leaves nothing behind, not even what would have set it apart. In the text of a service the headers of the
methods are the only lines with a single indentation, and the import and the header of the class the only ones without:
the lines of a comment are empty or stand deeper.
-/
namespace Stubsmith.Python

open Text (Bytes CodePoint)

variable {s : Service} {base out text : List CodePoint} {held : Bytes} {position : Option Nat} {m : Method}
variable {l : List CodePoint} {ls : List (List CodePoint)}

/-- The service cannot be written: the only comment of a method is empty, or half a character stands in the base name or
in a comment. -/
def Unwritable (base : List CodePoint) (s : Service) : Prop :=
  (∃ m ∈ s.methods, m.comments = [[]]) ∨ Text.hasHalf base = true ∨
    ∃ m ∈ s.methods, ∃ c ∈ m.comments, Text.hasHalf c = true

instance (base : List CodePoint) (s : Service) : Decidable (Unwritable base s) :=
  inferInstanceAs (Decidable (_ ∨ _ ∨ _))

/-- What a file holds after the services were written to it in order. One that fails is passed over. -/
def filled (base out : List CodePoint) (held : Bytes) (services : List Service) : Bytes :=
  services.foldl (fun held s => held ++ (write s base out (some held.length)).appended) held

lemma hasHalf_render (h : render s base = some text) : Text.hasHalf text = true ↔
    Text.hasHalf base = true ∨ ∃ m ∈ s.methods, ∃ c ∈ m.comments, Text.hasHalf c = true := by
  simp only [Text.hasHalf_iff, half_mem_render h]
  constructor
  · rintro ⟨n, hbase | ⟨m, hm, c, hc, hn⟩⟩
    · exact Or.inl ⟨n, hbase⟩
    · exact Or.inr ⟨m, hm, c, hc, n, hn⟩
  · rintro (⟨n, hbase⟩ | ⟨m, hm, c, hc, n, hn⟩)
    · exact ⟨n, Or.inl hbase⟩
    · exact ⟨n, Or.inr ⟨m, hm, c, hc, hn⟩⟩

/-- A service can be written exactly if it is rendered without halves. -/
lemma not_unwritable : ¬ Unwritable base s ↔ ∃ text, render s base = some text ∧ Text.hasHalf text = false := by
  unfold Unwritable
  rw [← render_eq_none]
  cases h : render s base with
  | none => simp
  | some text => simp [← hasHalf_render h]

lemma write_of_unwritable (h : Unwritable base s) : (write s base out position).failure ≠ none ∧
    (write s base out position).appended = [] ∧ (write s base out position).removesFile = false := by
  unfold write
  cases hs : render s base with
  | none => simp
  | some text =>
    have hhalf : Text.hasHalf text = true := by
      by_contra hplain
      exact not_unwritable.mpr ⟨text, hs, by simpa using hplain⟩ h
    have hencoded : Text.encodePoints? (lead position ++ text) = none := by
      rw [Text.encodePoints?, Text.plain?, Text.hasHalf_append, hhalf, Bool.or_true]
      rfl
    dsimp only
    rw [hencoded]
    exact ⟨by simp, rfl, rfl⟩

lemma write_of_render (h : render s base = some text) (hplain : Text.hasHalf text = false) :
    (write s base out position).failure = none ∧
      Text.encodePoints? (lead position ++ text) = some (write s base out position).appended := by
  have hlead : Text.hasHalf (lead position) = false := by
    unfold lead
    split
    · split_ifs <;> rfl
    · rfl
  have hencoded : Text.encodePoints? (lead position ++ text) = some (Text.encode (Text.chars (lead position ++ text))) :=
    Text.encodePoints?_eq_some.mpr ⟨by rw [Text.hasHalf_append, hlead, hplain]; rfl, rfl⟩
  unfold write
  rw [h]
  dsimp only
  rw [hencoded]
  exact ⟨rfl, rfl⟩

/-- The text of a service is never empty. -/
lemma render_ne_nil (h : render s base = some text) : text ≠ [] := by
  obtain ⟨lss, -, htext⟩ := Option.bind_eq_some_iff.mp h
  cases htext
  simp [headLines]

lemma filled_cons (services : List Service) : filled base out held (s :: services) =
    filled base out (held ++ (write s base out (some held.length)).appended) services := rfl

/-- The texts that have been written so far decide what comes next: the file is empty only before the first one. -/
lemma filled_joined {texts : List (List CodePoint)} (h : ∀ t ∈ texts, t ≠ [])
    (hheld : Text.encodePoints? (Text.joinWith separator texts) = some held) (services : List Service) :
    Text.encodePoints? (Text.joinWith separator
        (texts ++ (services.filter fun s => ¬ Unwritable base s).filterMap (render · base))) =
      some (filled base out held services) := by
  induction services generalizing texts held with
  | nil => simpa [filled] using hheld
  | cons s services ih =>
    rw [filled_cons]
    by_cases hs : Unwritable base s
    · rw [List.filter_cons_of_neg (by simpa using hs), (write_of_unwritable hs).2.1, List.append_nil]
      exact ih h hheld
    · obtain ⟨text, hrender, hplain⟩ := not_unwritable.mp hs
      have hgrown : Text.encodePoints? (Text.joinWith separator (texts ++ [text])) =
          some (held ++ (write s base out (some held.length)).appended) := by
        have happended := (@write_of_render s base out text (some held.length) hrender hplain).2
        obtain ⟨hwhole, rfl⟩ := Text.encodePoints?_eq_some.mp hheld
        by_cases hempty : texts = []
        · subst hempty
          exact happended
        · have hjoined : Text.joinWith separator texts ≠ [] := by
            rw [Ne, Text.joinWith_eq_nil (by decide), not_or]
            refine ⟨hempty, ?_⟩
            rintro rfl
            exact h [] (List.mem_singleton_self []) rfl
          have hpos : 0 < (Text.encode (Text.chars (Text.joinWith separator texts))).length := by
            rw [List.length_pos_iff, Ne, Text.encode_eq_nil, Text.chars, List.map_eq_nil_iff]
            exact hjoined
          rw [lead, if_pos hpos] at happended
          rw [Text.joinWith_concat _ _ hempty, List.append_assoc]
          exact Text.encodePoints?_append hheld happended
      rw [List.filter_cons_of_pos (by simpa using hs), @List.filterMap_cons_some _ _ (render · base) _ _ _ hrender,
        List.append_cons]
      refine ih ?_ hgrown
      rw [List.forall_mem_append, List.forall_mem_singleton]
      exact ⟨h, render_ne_nil hrender⟩

/-- How many spaces a line begins with. -/
def indentation (line : List CodePoint) : Nat := (line.takeWhile (· == .char ' ')).length

/-- The line is empty or stands at least as deep as the body of a method, and it is one line. -/
def Deep (l : List CodePoint) : Prop := .char '\n' ∉ l ∧ (l = [] ∨ 8 ≤ indentation l)

lemma le_indentation (n : Nat) (t : List CodePoint) : n ≤ indentation (List.replicate n (.char ' ') ++ t) := by
  rw [indentation, List.takeWhile_append_of_pos fun c hc => by simp [List.eq_of_mem_replicate hc], List.length_append,
    List.length_replicate]
  exact Nat.le_add_right n _

lemma deep_of_unbroken {t : List CodePoint} (h : .char '\n' ∉ t) : Deep (indent ++ indent ++ t) := by
  have hindent : indent ++ indent = List.replicate 8 (.char ' ') := rfl
  rw [Deep, hindent]
  exact ⟨by simpa using h, Or.inr (le_indentation 8 t)⟩

lemma newline_mem_points {cs : List Char} : .char '\n' ∈ Text.points cs ↔ '\n' ∈ cs := by simp [Text.points]

/-- The lines of a docstring are deep. -/
lemma deep_docstring {comments : List (List CodePoint)} (h : docstring comments (indent ++ indent) = some ls)
    (hl : l ∈ ls) : Deep l := by
  have hunbroken : ∀ t ∈ docLines comments, .char '\n' ∉ t := fun t ht hn =>
    absurd (Text.isLineBreak_of_mem_lines ht hn) (by decide)
  have hquotes : .char '\n' ∉ tripleQuote := by decide
  unfold docstring at h
  split at h
  · cases h
  · next t hdoc =>
    cases h
    rw [hdoc, List.forall_mem_singleton] at hunbroken
    rw [List.mem_singleton.mp hl, List.append_assoc, List.append_assoc]
    exact deep_of_unbroken (by simp [hunbroken, hquotes])
  · next t ts _ hdoc =>
    cases h
    rw [hdoc, List.forall_mem_cons] at hunbroken
    rw [List.cons_append, List.mem_cons, List.mem_append, List.mem_singleton] at hl
    rcases hl with rfl | hl | rfl
    · rw [List.append_assoc]
      exact deep_of_unbroken (by simp [hunbroken.1, hquotes])
    · obtain ⟨u, hu, rfl⟩ := List.mem_map.mp hl
      split_ifs
      · exact ⟨by simp, Or.inl rfl⟩
      · exact deep_of_unbroken (hunbroken.2 u hu)
    · exact deep_of_unbroken hquotes

/-- The header of a method. -/
def header (name : String) : List CodePoint := "    def " ++ name ++ "(self, request):"

/-- A method is its header and deep lines. -/
lemma methodLines_eq_some (h : methodLines m = some ls) (hm : '\n' ∉ m.name.toList) :
    ∃ body, ls = header m.name :: body ∧ ∀ l ∈ body, Deep l := by
  have hheader : header m.name = indent ++ "def " ++ m.name ++ "(self, request):" := by
    simp [header, indent, Text.points]
  have hrequest : Deep (indent ++ indent ++ "self.connector.createRequest(\"" ++ m.name ++ "\", request)") := by
    rw [List.append_assoc, List.append_assoc]
    exact deep_of_unbroken (by simpa [newline_mem_points] using hm)
  rw [hheader]
  unfold methodLines at h
  dsimp only at h
  split_ifs at h
  · cases h
    exact ⟨_, rfl, List.forall_mem_singleton.mpr hrequest⟩
  · obtain ⟨doc, hdoc, hls⟩ := Option.bind_eq_some_iff.mp h
    cases hls
    refine ⟨doc ++ [_], rfl, List.forall_mem_append.mpr ⟨fun l hl => deep_docstring hdoc hl, ?_⟩⟩
    exact List.forall_mem_singleton.mpr hrequest

/-- The lines with something on them that begin with exactly so many spaces. -/
def linesAt (depth : Nat) (lines : List (List CodePoint)) : List (List CodePoint) :=
  lines.filter fun l => l ≠ [] ∧ indentation l = depth

/-- Something stands on the line, behind so many spaces. -/
def At (depth : Nat) (l : List CodePoint) : Prop := l ≠ [] ∧ indentation l = depth

lemma linesAt_at {depth : Nat} (h : At depth l) : linesAt depth (l :: ls) = l :: linesAt depth ls :=
  List.filter_cons_of_pos (decide_eq_true h)

lemma linesAt_other {depth n : Nat} (h : At n l) (hne : n ≠ depth) : linesAt depth (l :: ls) = linesAt depth ls :=
  List.filter_cons_of_neg fun hl => hne (h.2.symm.trans (of_decide_eq_true hl).2)

lemma linesAt_empty (depth : Nat) (ls : List (List CodePoint)) : linesAt depth ([] :: ls) = linesAt depth ls :=
  List.filter_cons_of_neg fun hl => (of_decide_eq_true hl).1 rfl

lemma linesAt_append (depth : Nat) (ks ls : List (List CodePoint)) :
    linesAt depth (ks ++ ls) = linesAt depth ks ++ linesAt depth ls := List.filter_append ..

lemma linesAt_deep {depth : Nat} (hdepth : depth < 8) (h : ∀ l ∈ ls, Deep l) : linesAt depth ls = [] := by
  rw [linesAt, List.filter_eq_nil_iff]
  intro l hl
  rcases (h l hl).2 with rfl | hdeep
  · simp
  · simp only [decide_eq_true_eq, not_and]
    omega

/-- The lines of the methods: no line is broken, the headers are those with a single indentation, and every line that is
not empty has one. -/
structure Indented (names : List String) (lines : List (List CodePoint)) : Prop where
  whole : ∀ l ∈ lines, .char '\n' ∉ l
  headers : linesAt 4 lines = names.map header
  inner : linesAt 0 lines = []

lemma at_header (name : String) : At 4 (header name) := by
  refine ⟨by simp [header], ?_⟩
  simp [header, indentation, Text.points]

lemma indented_method (h : methodLines m = some ls) (hm : '\n' ∉ m.name.toList) : Indented [m.name] ([] :: ls) := by
  obtain ⟨body, rfl, hbody⟩ := methodLines_eq_some h hm
  refine ⟨?_, ?_, ?_⟩
  · rw [List.forall_mem_cons, List.forall_mem_cons]
    exact ⟨by simp, by simpa [header, newline_mem_points] using hm, fun l hl => (hbody l hl).1⟩
  · rw [linesAt_empty, linesAt_at (at_header m.name), linesAt_deep (by decide) hbody]
    rfl
  · rw [linesAt_empty, linesAt_other (at_header m.name) (by decide), linesAt_deep (by decide) hbody]

lemma Indented.append {names names' : List String} {ks : List (List CodePoint)} (hk : Indented names ks)
    (hl : Indented names' ls) : Indented (names ++ names') (ks ++ ls) where
  whole := List.forall_mem_append.mpr ⟨hk.whole, hl.whole⟩
  headers := by rw [linesAt_append, hk.headers, hl.headers, List.map_append]
  inner := by rw [linesAt_append, hk.inner, hl.inner, List.append_nil]

lemma indented_methods {ms : List Method} {lss : List (List (List CodePoint))} (h : ms.mapM methodLines = some lss)
    (hms : ∀ m ∈ ms, '\n' ∉ m.name.toList) : Indented (ms.map (·.name)) (lss.flatMap ([] :: ·)) := by
  induction ms generalizing lss with
  | nil =>
    cases h
    exact ⟨by simp, rfl, rfl⟩
  | cons m ms ih =>
    rw [List.mapM_cons] at h
    obtain ⟨ls, hls, hrest⟩ := Option.bind_eq_some_iff.mp h
    obtain ⟨rest, hlss, heq⟩ := Option.bind_eq_some_iff.mp hrest
    cases heq
    rw [List.forall_mem_cons] at hms
    exact (indented_method hls hms.1).append (ih hlss hms.2)

/-- The import at the head of a stub. -/
def importLine (base : List CodePoint) : List CodePoint :=
  "from . import " ++ moduleName base ++ "_pb2_grpc as importStub"

/-- The header of a class. -/
def classLine (service : String) : List CodePoint := "class " ++ service ++ "Service(object):"

/-- What stands on the outer lines of the text of a service. -/
structure Outlined (service : String) (base : List CodePoint) (methods : List String) (text : List CodePoint) :
    Prop where
  headers : linesAt 4 (Text.fields (.char '\n') text) = ↑"    def __init__(self, router):" :: methods.map header
  outermost : linesAt 0 (Text.fields (.char '\n') text) = [importLine base, classLine service]

lemma not_mem_moduleName (h : .char '\n' ∉ base) : .char '\n' ∉ moduleName base := by
  rw [moduleName, List.mem_map]
  rintro ⟨p, hp, hn⟩
  split_ifs at hn
  · cases hn
  · exact h (hn ▸ hp)

/-- The lines before the methods. -/
lemma outlined_head {service : String} (hbase : .char '\n' ∉ base) (hservice : '\n' ∉ service.toList) :
    (∀ l ∈ headLines service base, .char '\n' ∉ l) ∧
      linesAt 4 (headLines service base) = [↑"    def __init__(self, router):"] ∧
      linesAt 0 (headLines service base) = [importLine base, classLine service] := by
  have hmodule := not_mem_moduleName hbase
  have himport : At 0 (importLine base) := ⟨by simp [importLine], by simp [importLine, indentation, Text.points]⟩
  have hclass : At 0 (classLine service) :=
    ⟨by simp [classLine], by simp [classLine, indentation, Text.points]⟩
  have hinit : At 4 (indent ++ "def __init__(self, router):") := ⟨by decide, by decide⟩
  have hconnector : At 8 (indent ++ indent ++ "self.connector = router.__get__connection(" ++ (service ++ "Service") ++
      ", importStub." ++ service ++ "Stub)") :=
    ⟨by simp [indent], by simp [indent, indentation, Text.points]⟩
  have hlines : headLines service base = [importLine base, [], classLine service, [],
      indent ++ "def __init__(self, router):",
      indent ++ indent ++ "self.connector = router.__get__connection(" ++ (service ++ "Service") ++ ", importStub." ++
        service ++ "Stub)"] := by
    simp [headLines, importLine, classLine, Text.points]
  rw [hlines]
  refine ⟨?_, ?_, ?_⟩
  · simp [importLine, classLine, indent, newline_mem_points, hservice, hmodule]
  · rw [linesAt_other himport (by decide), linesAt_empty, linesAt_other hclass (by decide), linesAt_empty,
      linesAt_at hinit, linesAt_other hconnector (by decide)]
    rfl
  · rw [linesAt_at himport, linesAt_empty, linesAt_at hclass, linesAt_empty, linesAt_other hinit (by decide),
      linesAt_other hconnector (by decide)]
    rfl

/-- The text of a service shows its outline. -/
lemma outlined_render (h : render s base = some text) (hbase : .char '\n' ∉ base) (hname : '\n' ∉ s.name.toList)
    (hmethods : ∀ m ∈ s.methods, '\n' ∉ m.name.toList) : Outlined s.name base s.methodNames text := by
  obtain ⟨lss, hlss, htext⟩ := Option.bind_eq_some_iff.mp h
  cases htext
  have hindented := indented_methods hlss hmethods
  obtain ⟨hwhole, hheaders, houtermost⟩ := outlined_head hbase hname
  have hfields := Text.fields_ended (List.forall_mem_append.mpr ⟨hwhole, hindented.whole⟩)
  refine ⟨?_, ?_⟩
  · rw [hfields, linesAt_append, linesAt_append, hheaders, hindented.headers]
    simp [linesAt, Service.methodNames]
  · rw [hfields, linesAt_append, linesAt_append, houtermost, hindented.inner]
    simp [linesAt]

/-- Services that are written to one file stand in it whole, two newlines apart. One fails exactly if the only comment of
a method is empty or half a character stands in the base name or in a comment, and then the file is as it was. Whatever
the comments are, the outer lines of a text are the import, the header of the class and the headers of its methods. -/
theorem filled_layout (base out : List CodePoint) (services : List Service) :
    Text.encodePoints? (Text.joinWith [.char '\n', .char '\n']
        ((services.filter fun s => ¬ Unwritable base s).filterMap (render · base))) =
      some (filled base out [] services) ∧
    (∀ s position, let written := write s base out position
      (written.failure ≠ none ↔ Unwritable base s) ∧
      (written.failure ≠ none → written.appended = [] ∧ written.removesFile = false) ∧
      (written.failure = none → ∃ text, render s base = some text)) ∧
    (.char '\n' ∉ base → ∀ s ∈ services, '\n' ∉ s.name.toList → (∀ m ∈ s.methods, '\n' ∉ m.name.toList) →
      ∀ text, render s base = some text → Outlined s.name base s.methodNames text) := by
  have hfailure : ∀ s position, (write s base out position).failure ≠ none ↔ Unwritable base s := by
    intro s position
    refine ⟨fun hfails => ?_, fun h => (write_of_unwritable h).1⟩
    by_contra h
    obtain ⟨text, htext, hplain⟩ := not_unwritable.mp h
    exact hfails (write_of_render htext hplain).1
  refine ⟨?_, fun s position => ⟨hfailure s position, fun hfails => ?_, fun hdone => ?_⟩, ?_⟩
  · have hjoined := @filled_joined base out [] [] (by simp) rfl services
    rwa [List.nil_append] at hjoined
  · exact (write_of_unwritable ((hfailure s position).mp hfails)).2
  · obtain ⟨text, htext, -⟩ := not_unwritable.mp fun h => (hfailure s position).mpr h hdone
    exact ⟨text, htext⟩
  · intro hbase s _ hname hmethods text htext
    exact outlined_render htext hbase hname hmethods

/-- A service with comments that look like headers, one that cannot be rendered, one with half a character in a comment,
and one without methods. -/
def noisyServices : List Service :=
  [⟨"A", [⟨"m", "", "", ["class X:\n    def f(self):", "\\", "\"\"\""], by decide⟩], by decide⟩,
    ⟨"B", [⟨"n", "", "", [""], by decide⟩], by decide⟩,
    ⟨"D", [⟨"n", "", "", [[.half 0xD800]], by decide⟩], by decide⟩, ⟨"C", [], by decide⟩]

theorem noisyServices_layout :
    (noisyServices.filter fun s => ¬ Unwritable "a-b" s).length = 2 ∧
    Text.encodePoints? (Text.joinWith [.char '\n', .char '\n']
        ((noisyServices.filter fun s => ¬ Unwritable "a-b" s).filterMap (render · "a-b"))) =
      some (filled "a-b" "a_b_service.py" [] noisyServices) ∧
    ∀ s ∈ noisyServices, ∀ text, render s "a-b" = some text → Outlined s.name "a-b" s.methodNames text := by
  obtain ⟨hfilled, -, houtlined⟩ := filled_layout "a-b" "a_b_service.py" noisyServices
  have hnames : ∀ s ∈ noisyServices, '\n' ∉ s.name.toList ∧ ∀ m ∈ s.methods, '\n' ∉ m.name.toList := by decide +kernel
  refine ⟨by decide +kernel, hfilled, fun s hs => ?_⟩
  exact houtlined (by decide) s hs (hnames s hs).1 (hnames s hs).2

/-- A base name that is half a character keeps a service without comments from being written. -/
theorem halfBase_unwritten :
    let base : List CodePoint := [.half 0xDCFF]
    let s : Service := ⟨"S", [], by decide⟩
    (write s base "S_service.py" (some 0)).failure ≠ none ∧ (¬ ∃ m ∈ s.methods, m.comments = [[]]) ∧
      (∃ text, render s base = some text) ∧ filled base "S_service.py" [] [s] = [] := by
  refine ⟨by decide +kernel, by decide, ⟨_, rfl⟩, by decide +kernel⟩

end Stubsmith.Python
