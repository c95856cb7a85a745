import Mathlib.Tactic.MkIffOfInductiveProp
import Stubsmith.Proofs.Proto.Drafting
import Stubsmith.Proofs.Proto.Lines
import Stubsmith.Service.Extract

/-!
# Printed services

A service is printed with its methods on lines of their own, each below the lines of its comments. The text is
a draft of a file with one statement: names, types and comments are told from what stands behind them, since
names are followed by blanks or signs and comments by line ends.
-/
namespace Stubsmith.Service

open Proto
open Text (CodePoint)

def printComment (c : List CodePoint) : String := "// " ++ Text.charText c ++ "\n"

def printMethod (m : Method) : String :=
  String.join (m.comments.map printComment) ++
    "rpc " ++ m.name ++ " (" ++ Text.charText m.request ++ ") returns (" ++ Text.charText m.response ++ ");\n"

def printService (s : Service) : String :=
  "service " ++ s.name ++ " \x7b\n" ++ String.join (s.methods.map printMethod) ++ "\x7d\n"

def printServices (ss : List Service) : String := String.join (ss.map printService)

/-- A dotted path of names, perhaps with a dot before it. Without that dot it does not begin with `stream`. -/
def IsTypeName (type : List Char) : Prop :=
  (∀ part ∈ Text.fields '.' (Text.dropLead ['.'] type), Terminal.ident.Spells part) ∧
    (Text.fields '.' type).head? ≠ some Keyword.kwStream.spelling.toList

/-- A text of characters on one line, with no blanks at its ends. -/
@[mk_iff] structure IsRemark (c : List CodePoint) : Prop where
  plain : Text.hasHalf c = false
  ne : c ≠ []
  line : .char '\n' ∉ c
  lead : ∀ p ∈ c.head?, p.isBlank = false
  tail : ∀ p ∈ c.getLast?, p.isBlank = false

@[mk_iff] structure PrintableMethod (m : Method) : Prop where
  name : Terminal.ident.Spells m.name.toList
  plain : Text.hasHalf m.request = false ∧ Text.hasHalf m.response = false
  request : IsTypeName (Text.chars m.request)
  response : IsTypeName (Text.chars m.response)
  comments : ∀ c ∈ m.comments, IsRemark c

@[mk_iff] structure PrintableService (s : Service) : Prop where
  name : Terminal.ident.Spells s.name.toList
  methods : ∀ m ∈ s.methods, PrintableMethod m

instance (type : List Char) : Decidable (IsTypeName type) := inferInstanceAs (Decidable (_ ∧ _))

instance (c : List CodePoint) : Decidable (IsRemark c) :=
  decidable_of_iff (Text.hasHalf c = false ∧ c ≠ [] ∧ .char '\n' ∉ c ∧ c.head?.all (!·.isBlank) = true ∧
    c.getLast?.all (!·.isBlank) = true) <| by
    simp [isRemark_iff, Option.all_eq_true]

instance (m : Method) : Decidable (PrintableMethod m) := decidable_of_iff _ (printableMethod_iff m).symm

instance (s : Service) : Decidable (PrintableService s) := decidable_of_iff _ (printableService_iff s).symm

def signLexeme (t : Terminal) (c : Char) : Lexeme := .token t [c]

def keywordLexeme (k : Keyword) : Lexeme := .token (.keyword k) k.spelling.toList

def oneSpace : Lexeme := .space [' ']

def lineEnd : Lexeme := .space ['\n']

/-- The parts of a path with dots between them. -/
def pathLexemes : List (List Char) → List Lexeme
  | [] => []
  | first :: more => .token .ident first :: more.flatMap fun part => [signLexeme .dot '.', .token .ident part]

def typeLexemes (type : List Char) : List Lexeme :=
  (if type.head? = some '.' then [signLexeme .dot '.'] else []) ++
    pathLexemes (Text.fields '.' (Text.dropLead ['.'] type))

/-- A text is its fields with the separators between them. -/
lemma exists_fields (sep : Char) (cs : List Char) : ∃ first more, Text.fields sep cs = first :: more ∧
    cs = first ++ more.flatMap fun part => sep :: part := by
  induction cs with
  | nil => exact ⟨[], [], rfl, rfl⟩
  | cons c cs ih =>
    obtain ⟨first, more, hfields, hcs⟩ := ih
    rw [Text.fields, hfields]
    by_cases hc : c = sep
    · exact ⟨[], first :: more, by simp [hc], by simp [hc, ← hcs]⟩
    · exact ⟨c :: first, more, by simp [hc], by rw [List.cons_append, ← hcs]⟩

lemma pieces_path (first : List Char) (more : List (List Char)) :
    (Draft.lex (pathLexemes (first :: more))).pieces =
      .token .ident :: more.flatMap fun _ => [.token .dot, .token .ident] := by
  simp [Draft.lex, pathLexemes, signLexeme, Lexeme.token?, List.filterMap_flatMap, List.map_flatMap]

/-- More parts can come behind a part of a path. -/
lemma foldl_dottedTail (more : List (List Char)) :
    (more.flatMap fun _ => [Piece.token .dot, .token .ident]).foldl (fun s p => s.after p) Shape.dottedTail =
      Shape.dottedTail := by
  have hround : (Shape.dottedTail.after (.token .dot)).after (.token .ident) = Shape.dottedTail := by decide
  induction more with
  | nil => rfl
  | cons part more ih =>
    rw [List.flatMap_cons, List.foldl_append, List.foldl_cons, List.foldl_cons, List.foldl_nil, hround, ih]

lemma matches_type (type : List Char) :
    Rule.messageType.shape.Matches (Draft.lex (typeLexemes type)).pieces := by
  have hdot : Rule.messageType.shape.after (.token .dot) = Shape.dotted := by decide
  have hfirst : Rule.messageType.shape.after (.token .ident) = Shape.dotted.after (.token .ident) := by decide
  have hsecond : ((Shape.dotted.after (.token .ident)).after (.token .dot)).after (.token .ident) =
      Shape.dottedTail := by decide
  obtain ⟨first, more, hfields, -⟩ := exists_fields '.' (Text.dropLead ['.'] type)
  have hpath : (Shape.dotted.after (.token .ident)).Matches
      (more.flatMap fun _ => [.token .dot, .token .ident]) := by
    rw [Shape.matches_iff]
    cases more with
    | nil => decide
    | cons part more =>
      rw [List.flatMap_cons, List.foldl_append, List.foldl_cons, List.foldl_cons, List.foldl_nil, hsecond,
        foldl_dottedTail]
      rfl
  rw [typeLexemes, hfields]
  split_ifs
  · show Rule.messageType.shape.Matches (.token .dot :: (Draft.lex (pathLexemes (first :: more))).pieces)
    rw [pieces_path, ← Shape.matches_after, hdot, ← Shape.matches_after]
    exact hpath
  · rw [List.nil_append, pieces_path, ← Shape.matches_after, hfirst]
    exact hpath

def typeDraft (type : List Char) : Draft := .node .messageType (.lex (typeLexemes type)) (matches_type type)

def nameDraft (name : String) : Draft := .lex [.token .ident name.toList]

/-- The line of a method. -/
def lineDraft (m : Method) : Draft :=
  .lex [keywordLexeme .kwRpc, oneSpace] ++
    .node .methodName (nameDraft m.name) (Shape.matches_piece.mpr rfl) ++
    .lex [oneSpace, signLexeme .openParen '('] ++ typeDraft (Text.chars m.request) ++
    .lex [signLexeme .closeParen ')', oneSpace, keywordLexeme .kwReturns, oneSpace, signLexeme .openParen '('] ++
    typeDraft (Text.chars m.response) ++ .lex [signLexeme .closeParen ')', signLexeme .semicolon ';']

lemma pieces_line (m : Method) : (lineDraft m).pieces =
    [.token (.keyword .kwRpc), .rule .methodName, .token .openParen, .rule .messageType, .token .closeParen,
      .token (.keyword .kwReturns), .token .openParen, .rule .messageType, .token .closeParen,
      .token .semicolon] := rfl

lemma matches_line (m : Method) : Rule.method.shape.Matches (lineDraft m).pieces := by
  rw [pieces_line, Shape.matches_iff]
  decide +kernel

def commentLexemes (cs : List (List CodePoint)) : List Lexeme :=
  cs.flatMap fun c => [.comment ("// " ++ Text.charText c).toList, lineEnd]

/-- The lines of a method and its comments. -/
def methodDraft (m : Method) : Draft :=
  .lex (commentLexemes m.comments) ++ .node .method (lineDraft m) (matches_line m) ++ .lex [lineEnd]

def bodyDraft (ms : List Method) : Draft := .concat (ms.map methodDraft)

lemma pieces_comments (cs : List (List CodePoint)) : (Draft.lex (commentLexemes cs)).pieces = [] := by
  simp [Draft.lex, commentLexemes, lineEnd, Lexeme.token?, List.filterMap_flatMap]

lemma pieces_body (ms : List Method) : (bodyDraft ms).pieces = ms.map fun _ => .rule .method := by
  induction ms with
  | nil => rfl
  | cons m ms ih =>
    show (Draft.lex (commentLexemes m.comments)).pieces ++ [Piece.rule .method] ++ [] ++ (bodyDraft ms).pieces = _
    rw [pieces_comments, ih]
    rfl

/-- A service up to its name. -/
def titleDraft (s : Service) : Draft :=
  .lex [keywordLexeme .kwService, oneSpace] ++
    .node .serviceName (nameDraft s.name) (Shape.matches_piece.mpr rfl)

/-- The first line of a service. -/
def headDraft (s : Service) : Draft :=
  titleDraft s ++ .lex [oneSpace, signLexeme .openBrace '\x7b', lineEnd]

def memberDraft (s : Service) : Draft :=
  headDraft s ++ bodyDraft s.methods ++ .lex [signLexeme .closeBrace '\x7d']

lemma matches_members (s : Service) : Rule.serviceDef.shape.Matches (memberDraft s).pieces := by
  have hpieces : (memberDraft s).pieces =
      [Piece.token (.keyword .kwService), Piece.rule .serviceName, Piece.token .openBrace] ++
        (bodyDraft s.methods).pieces ++ [Piece.token .closeBrace] := rfl
  have hround : ∀ s : Shape, s.after (.rule .method) = s →
      ∀ ms : List Method, (ms.map fun _ => Piece.rule .method).foldl (fun s p => s.after p) s = s := by
    intro s hs ms
    induction ms with
    | nil => rfl
    | cons m ms ih => rw [List.map_cons, List.foldl_cons, hs, ih]
  rw [hpieces, pieces_body, Shape.matches_iff, List.foldl_append, List.foldl_append, hround _ (by decide)]
  decide

def serviceDraft (s : Service) : Draft :=
  .node .definition (.node .serviceDef (memberDraft s) (matches_members s)) (Shape.matches_iff.mpr rfl)

section Texts

variable {type rest : List Char} {m : Method} {ms : List Method} {s : Service}

lemma dropLead_dot (type : List Char) :
    type = (if type.head? = some '.' then ['.'] else []) ++ Text.dropLead ['.'] type := by
  cases type with
  | nil => rfl
  | cons c cs =>
    by_cases hc : c = '.'
    · subst hc
      simp [Text.dropLead]
    · simp [Text.dropLead, hc, Ne.symm hc]

lemma textOf_path (first : List Char) (more : List (List Char)) :
    textOf (pathLexemes (first :: more)) = first ++ more.flatMap fun part => '.' :: part := by
  simp [pathLexemes, textOf, signLexeme, Lexeme.text, List.flatMap_assoc]

@[simp] lemma textOf_type (type : List Char) : textOf (typeLexemes type) = type := by
  obtain ⟨first, more, hfields, hcs⟩ := exists_fields '.' (Text.dropLead ['.'] type)
  conv_rhs => rw [dropLead_dot type]
  rw [typeLexemes, hfields, textOf_append, textOf_path, ← hcs]
  split_ifs <;> rfl

lemma lexemes_line (m : Method) : (lineDraft m).lexemes =
    [keywordLexeme .kwRpc, oneSpace, .token .ident m.name.toList, oneSpace, signLexeme .openParen '('] ++
      (typeLexemes (Text.chars m.request) ++
        ([signLexeme .closeParen ')', oneSpace, keywordLexeme .kwReturns, oneSpace, signLexeme .openParen '('] ++
          (typeLexemes (Text.chars m.response) ++ [signLexeme .closeParen ')', signLexeme .semicolon ';']))) := by
  simp [lineDraft, typeDraft, nameDraft]

lemma lexemes_method (m : Method) :
    (methodDraft m).lexemes = commentLexemes m.comments ++ ((lineDraft m).lexemes ++ [lineEnd]) := by
  simp [methodDraft]

lemma lexemes_body (ms : List Method) :
    (bodyDraft ms).lexemes = ms.flatMap fun m => (methodDraft m).lexemes := by
  induction ms with
  | nil => rfl
  | cons m ms ih =>
    rw [List.flatMap_cons, ← ih]
    rfl

lemma lexemes_service (s : Service) : (serviceDraft s).lexemes =
    [keywordLexeme .kwService, oneSpace, .token .ident s.name.toList, oneSpace, signLexeme .openBrace '\x7b',
      lineEnd] ++ ((bodyDraft s.methods).lexemes ++ [signLexeme .closeBrace '\x7d']) := by
  simp [serviceDraft, memberDraft, headDraft, titleDraft, nameDraft]

/-- A type consists of tokens. -/
lemma mem_type {l : Lexeme} (h : l ∈ typeLexemes type) : ∃ k v, l = .token k v := by
  obtain ⟨first, more, hfields, -⟩ := exists_fields '.' (Text.dropLead ['.'] type)
  rw [typeLexemes, hfields, pathLexemes] at h
  simp only [List.mem_append, List.mem_cons, List.mem_flatMap, List.not_mem_nil, or_false] at h
  rcases h with h | rfl | ⟨part, -, rfl | rfl⟩
  · split_ifs at h
    · exact ⟨_, _, List.mem_singleton.mp h⟩
    · cases h
  · exact ⟨_, _, rfl⟩
  · exact ⟨_, _, rfl⟩
  · exact ⟨_, _, rfl⟩

/-- The line of a method consists of tokens and single blanks. -/
lemma mem_line {l : Lexeme} (h : l ∈ (lineDraft m).lexemes) : l = oneSpace ∨ ∃ k v, l = .token k v := by
  rw [lexemes_line] at h
  simp only [List.mem_append, List.mem_cons, List.not_mem_nil, or_false] at h
  rcases h with (rfl | rfl | rfl | rfl | rfl) | h | (rfl | rfl | rfl | rfl | rfl) | h | rfl | rfl
  all_goals first
    | exact Or.inl rfl
    | exact Or.inr ⟨_, _, rfl⟩
    | exact Or.inr (mem_type h)

lemma mem_comments {cs : List (List CodePoint)} {v : List Char} (h : .comment v ∈ commentLexemes cs) :
    ∃ c ∈ cs, v = ("// " ++ Text.charText c).toList := by
  obtain ⟨c, hc, h⟩ := List.mem_flatMap.mp h
  simp only [lineEnd, List.mem_cons, Lexeme.comment.injEq, List.not_mem_nil, or_false, reduceCtorEq] at h
  exact ⟨c, hc, h⟩

lemma text_line (m : Method) : (lineDraft m).text =
    ("rpc " ++ m.name ++ " (" ++ Text.charText m.request ++ ") returns (" ++ Text.charText m.response ++
      ");").toList := by
  rw [Draft.text, lexemes_line]
  simp [Text.charText, Lexeme.text, keywordLexeme, signLexeme, oneSpace, Keyword.spelling]

lemma textOf_comments (cs : List (List CodePoint)) :
    textOf (commentLexemes cs) = (String.join (cs.map printComment)).toList := by
  simp [textOf, commentLexemes, printComment, Lexeme.text, lineEnd, List.flatMap_assoc, List.flatMap_map]

lemma text_method (m : Method) : (methodDraft m).text = (printMethod m).toList := by
  rw [Draft.text, lexemes_method, textOf_append, textOf_append, textOf_comments, ← Draft.text, text_line]
  simp [printMethod, Lexeme.text, lineEnd]

lemma text_body (ms : List Method) : (bodyDraft ms).text = (String.join (ms.map printMethod)).toList := by
  rw [Draft.text, lexemes_body, textOf, List.flatMap_assoc, String.toList_join, List.flatMap_map]
  exact List.flatMap_congr fun m _ => text_method m

lemma text_service (s : Service) : (printService s).toList = (serviceDraft s).text ++ ['\n'] := by
  rw [Draft.text, lexemes_service, textOf_append, textOf_append, ← Draft.text, text_body]
  simp [printService, Lexeme.text, keywordLexeme, signLexeme, oneSpace, lineEnd, Keyword.spelling]

lemma legible_oneSpace : oneSpace.Legible rest :=
  show ∀ c ∈ [' '], isSpace c = true from List.forall_mem_singleton.mpr rfl

lemma legible_lineEnd : lineEnd.Legible rest :=
  show ∀ c ∈ ['\n'], isSpace c = true from List.forall_mem_singleton.mpr rfl

lemma legible_keyword (k : Keyword) : (keywordLexeme k).Legible (' ' :: rest) :=
  ⟨.fixed rfl, parted_cons.mpr (by decide)⟩

/-- A name ends before a blank or a sign. -/
lemma isIdentRest_head {c : Char} (hc : isIdentRest c = false) (u : List Char) :
    ∀ d ∈ (c :: u).head?, isIdentRest d = false := by
  rintro d ⟨⟩
  exact hc

lemma legible_path {first : List Char} {more : List (List Char)}
    (h : ∀ part ∈ first :: more, Terminal.ident.Spells part) (hr : ∀ c ∈ rest.head?, isIdentRest c = false) :
    Legible rest (pathLexemes (first :: more)) := by
  induction more generalizing first with
  | nil => exact ⟨⟨h first (by simp), hr⟩, trivial⟩
  | cons part more ih =>
    have hmore := ih fun v hv => h v (List.mem_cons_of_mem _ hv)
    exact ⟨⟨h first (by simp), isIdentRest_head rfl _⟩, ⟨.fixed rfl, trivial⟩, hmore⟩

lemma legible_type (h : IsTypeName type) (hr : ∀ c ∈ rest.head?, isIdentRest c = false) :
    Legible rest (typeLexemes type) := by
  have hparts := h.1
  obtain ⟨first, more, hfields, -⟩ := exists_fields '.' (Text.dropLead ['.'] type)
  rw [hfields] at hparts
  rw [typeLexemes, hfields, legible_append]
  refine ⟨?_, legible_path hparts hr⟩
  split_ifs
  · exact ⟨⟨.fixed rfl, trivial⟩, trivial⟩
  · trivial

lemma toList_remark (c : List CodePoint) : ("// " ++ Text.charText c).toList = '/' :: '/' :: ' ' :: Text.chars c := by
  simp [Text.charText]

lemma comment?_remark {c : List CodePoint} (h : IsRemark c) (more : List Char) :
    comment? (("// " ++ Text.charText c).toList ++ '\n' :: more) = some ("// " ++ Text.charText c).toList := by
  have hline : ∀ d ∈ ' ' :: Text.chars c, (d != '\n') = true := by
    intro d hd
    rcases List.mem_cons.mp hd with rfl | hd
    · decide
    · rw [bne_iff_ne]
      rintro rfl
      have hmem := List.mem_map_of_mem (f := CodePoint.char) hd
      rw [← Text.points, Text.points_chars h.plain] at hmem
      exact h.line hmem
  rw [toList_remark]
  show some ('/' :: '/' :: (' ' :: Text.chars c ++ '\n' :: more).takeWhile (· != '\n')) = _
  rw [List.takeWhile_append_of_pos hline]
  simp

lemma legible_comments {cs : List (List CodePoint)} (h : ∀ c ∈ cs, IsRemark c) : Legible rest (commentLexemes cs) := by
  induction cs with
  | nil => trivial
  | cons c cs ih =>
    rw [List.forall_mem_cons] at h
    exact ⟨comment?_remark h.1 _, legible_lineEnd, ih h.2⟩

lemma legible_line (h : PrintableMethod m) : Legible rest (lineDraft m).lexemes := by
  rw [lexemes_line]
  simp only [legible_append]
  refine ⟨?_, legible_type h.request (isIdentRest_head rfl _), ?_,
    legible_type h.response (isIdentRest_head rfl _), ?_⟩
  · exact ⟨legible_keyword _, legible_oneSpace, ⟨h.name, isIdentRest_head rfl _⟩, legible_oneSpace,
      ⟨.fixed rfl, trivial⟩, trivial⟩
  · exact ⟨⟨.fixed rfl, trivial⟩, legible_oneSpace, legible_keyword _, legible_oneSpace, ⟨.fixed rfl, trivial⟩,
      trivial⟩
  · exact ⟨⟨.fixed rfl, trivial⟩, ⟨.fixed rfl, trivial⟩, trivial⟩

lemma legible_body (h : ∀ m ∈ ms, PrintableMethod m) : Legible rest (bodyDraft ms).lexemes := by
  rw [lexemes_body]
  induction ms with
  | nil => trivial
  | cons m ms ih =>
    rw [List.forall_mem_cons] at h
    rw [List.flatMap_cons, legible_append, lexemes_method, legible_append, legible_append]
    exact ⟨⟨legible_comments h.1.comments, legible_line h.1, legible_lineEnd, trivial⟩, ih h.2⟩

lemma legible_service (h : PrintableService s) : Legible rest (serviceDraft s).lexemes := by
  rw [lexemes_service, legible_append, legible_append]
  refine ⟨?_, legible_body h.methods, ⟨.fixed rfl, trivial⟩, trivial⟩
  exact ⟨legible_keyword _, legible_oneSpace, ⟨h.name, isIdentRest_head rfl _⟩, legible_oneSpace,
    ⟨.fixed rfl, trivial⟩, legible_lineEnd, trivial⟩

/-- The tokens of a type: none of them is a parenthesis or a word, and the first is not the name `stream`. -/
lemma tokens_type (h : IsTypeName type) :
    (∀ t ∈ (typeLexemes type).filterMap Lexeme.token?, t.1 ≠ .openParen ∧ t.1 ≠ .word) ∧
      ∃ t ts, (typeLexemes type).filterMap Lexeme.token? = t :: ts ∧
        t ≠ (.ident, Keyword.kwStream.spelling.toList) := by
  obtain ⟨first, more, hfields, -⟩ := exists_fields '.' (Text.dropLead ['.'] type)
  have htokens : (typeLexemes type).filterMap Lexeme.token? =
      (if type.head? = some '.' then [(Terminal.dot, ['.'])] else []) ++
        (Terminal.ident, first) :: more.flatMap fun part => [(Terminal.dot, ['.']), (Terminal.ident, part)] := by
    rw [typeLexemes, hfields]
    split_ifs <;>
    simp [pathLexemes, signLexeme, Lexeme.token?, List.filterMap_flatMap]
  rw [htokens]
  refine ⟨fun t ht => ?_, ?_⟩
  · have hkind : t.1 = .dot ∨ t.1 = .ident := by
      simp only [List.mem_append, List.mem_cons, List.mem_flatMap, List.not_mem_nil, or_false] at ht
      rcases ht with ht | rfl | ⟨part, -, rfl | rfl⟩
      · split_ifs at ht
        · rw [List.mem_singleton.mp ht]
          exact Or.inl rfl
        · cases ht
      · exact Or.inr rfl
      · exact Or.inl rfl
      · exact Or.inr rfl
    rcases hkind with hkind | hkind
    · simp [hkind]
    · simp [hkind]
  · split_ifs with hdot
    · exact ⟨_, _, rfl, by simp⟩
    · refine ⟨_, _, rfl, ?_⟩
      have hundotted := dropLead_dot type
      rw [if_neg hdot, List.nil_append] at hundotted
      have hstream := h.2
      rw [hundotted, hfields, List.head?_cons] at hstream
      simpa using hstream

lemma isChain_type (h : IsTypeName type) (v : List Char) (us : List (Terminal × List Char)) :
    (((.openParen, v) :: ((typeLexemes type).filterMap Lexeme.token? ++ us)).IsChain fun a b => ¬ Bare a b) ↔
      us.IsChain fun a b => ¬ Bare a b := by
  obtain ⟨hplain, t, ts, htokens, hfirst⟩ := tokens_type h
  rw [htokens, List.cons_append, isChain_paren_bare hfirst, ← List.cons_append, ← htokens,
    isChain_append_bare fun t ht => (hplain t ht).1]

lemma tokens_method (m : Method) : (methodDraft m).lexemes.filterMap Lexeme.token? =
    (Terminal.keyword .kwRpc, Keyword.kwRpc.spelling.toList) :: (Terminal.ident, m.name.toList) ::
      (Terminal.openParen, ['(']) :: ((typeLexemes (Text.chars m.request)).filterMap Lexeme.token? ++
        (Terminal.closeParen, [')']) :: (Terminal.keyword .kwReturns, Keyword.kwReturns.spelling.toList) ::
          (Terminal.openParen, ['(']) :: ((typeLexemes (Text.chars m.response)).filterMap Lexeme.token? ++
            [(Terminal.closeParen, [')']), (Terminal.semicolon, [';'])])) := by
  rw [lexemes_method, lexemes_line]
  simp [commentLexemes, Lexeme.token?, keywordLexeme, signLexeme, oneSpace, lineEnd, List.filterMap_flatMap,
    List.filterMap_cons]

/-- A method changes nothing about the tokens behind it. -/
lemma isChain_method (h : PrintableMethod m) (us : List (Terminal × List Char)) :
    (((methodDraft m).lexemes.filterMap Lexeme.token? ++ us).IsChain fun a b => ¬ Bare a b) ↔
      us.IsChain fun a b => ¬ Bare a b := by
  rw [tokens_method]
  simp only [List.append_assoc, List.cons_append, List.nil_append]
  rw [isChain_cons_bare (by simp), isChain_cons_bare (by simp), isChain_type h.request,
    isChain_cons_bare (by simp), isChain_cons_bare (by simp), isChain_type h.response,
    isChain_cons_bare (by simp), isChain_cons_bare (by simp)]

lemma plain_method (h : PrintableMethod m) :
    ∀ t ∈ (methodDraft m).lexemes.filterMap Lexeme.token?, t.1 ≠ .word := by
  have hrequest := (tokens_type h.request).1
  have hresponse := (tokens_type h.response).1
  rw [tokens_method]
  simp only [List.forall_mem_append, List.forall_mem_cons]
  exact ⟨by simp, by simp, by simp, fun t ht => (hrequest t ht).2, by simp, by simp, by simp,
    fun t ht => (hresponse t ht).2, by simp⟩

/-- A printed service is read to the trees of its draft. -/
theorem read_service (h : PrintableService s) : read (serviceDraft s).text =
    .ok (.node .file ((serviceDraft s).trees .start), commentsOf (marksFrom .start (serviceDraft s).lexemes)) := by
  have htokens : (serviceDraft s).lexemes.filterMap Lexeme.token? =
      [(Terminal.keyword .kwService, Keyword.kwService.spelling.toList), (Terminal.ident, s.name.toList),
        (Terminal.openBrace, ['\x7b'])] ++
          (s.methods.flatMap (fun m => (methodDraft m).lexemes.filterMap Lexeme.token?) ++
            [(Terminal.closeBrace, ['\x7d'])]) := by
    rw [lexemes_service, lexemes_body]
    simp [Lexeme.token?, keywordLexeme, signLexeme, oneSpace, lineEnd, List.filterMap_flatMap, List.filterMap_cons]
  have hbody : ∀ ms : List Method, (∀ m ∈ ms, PrintableMethod m) → ∀ us : List (Terminal × List Char),
      ((ms.flatMap (fun m => (methodDraft m).lexemes.filterMap Lexeme.token?) ++ us).IsChain
        fun a b => ¬ Bare a b) ↔ us.IsChain fun a b => ¬ Bare a b := by
    intro ms hms us
    induction ms with
    | nil => rfl
    | cons m ms ih =>
      rw [List.forall_mem_cons] at hms
      rw [List.flatMap_cons, List.append_assoc, isChain_method hms.1, ih hms.2]
  refine Draft.read_eq (Shape.matches_iff.mpr rfl) (legible_service h) ?_ ?_
  · rw [htokens]
    simp only [List.forall_mem_append, List.forall_mem_cons]
    refine ⟨by simp, fun t ht => ?_, by simp⟩
    obtain ⟨m, hm, ht⟩ := List.mem_flatMap.mp ht
    exact plain_method (h.methods m hm) t ht
  · rw [htokens, isChain_append_bare (by simp), hbody _ h.methods]
    exact .singleton _

end Texts

end Stubsmith.Service
