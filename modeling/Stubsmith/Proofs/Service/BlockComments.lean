import Stubsmith.Proofs.Text.Trimming
import Stubsmith.Proto.Parse
import Stubsmith.Service.Extract

/-!
# Block comments

Of a block comment its marks go, one star behind the opening mark, and on each line the blanks around the text and
one star in front of it. The text of the comment is what is left of its lines, without the empty ones at either end.
Only a comment without a body keeps a slash, since its marks share a star with the longer opening mark. A comment of
which nothing is left is not seen by the methods of its service.
-/
namespace Stubsmith.Service

open Proto (Node)
open Text (CodePoint)

variable {body name : List CodePoint} {waiting waiting' : List (List CodePoint)} {n : Node} {es : List Node}

/-- A block comment by its body. -/
def blockComment (body : List CodePoint) : List CodePoint := Text.points ['/', '*'] ++ body ++ Text.points ['*', '/']

/-- The lines of a body behind one star, each without the blanks around it and behind one star again. -/
def innerLines (body : List CodePoint) : List (List CodePoint) :=
  (Text.lines (Text.dropLead [.char '*'] body)).map fun line =>
    Text.trim (Text.dropLead [.char '*'] (Text.trim line))

/-- The lines of a body from the first to the last one that is not empty, with newlines between them. -/
def innerText (body : List CodePoint) : List CodePoint :=
  [CodePoint.char '\n'].intercalate (((innerLines body).dropWhile List.isEmpty).rdropWhile List.isEmpty)

lemma trim_blockComment : Text.trim (blockComment body) = blockComment body := by
  have hlast : (blockComment body).getLast? = some (.char '/') := by
    rw [blockComment, List.getLast?_append]
    rfl
  refine Text.trim_eq ?_ fun p hp => ?_
  · rintro p ⟨⟩
    decide
  · rw [hlast, Option.mem_some_iff] at hp
    subst hp
    decide

/-- The marks around a body are dropped, and a star behind the first one. -/
lemma blockBody_blockComment (h : ¬ Text.points ['*', '/'] <:+: body) (hne : body ≠ []) :
    blockBody (blockComment body) = Text.dropLead [.char '*'] body := by
  obtain ⟨p, rest, rfl⟩ := List.exists_cons_of_ne_nil hne
  by_cases hp : p = .char '*'
  · subst hp
    -- The rest cannot begin with a slash, so the shorter mark is not dropped as well.
    have hrest : ¬ Text.points ['/', '*'] <+: rest ++ Text.points ['*', '/'] := by
      cases rest with
      | nil => decide
      | cons q rest =>
        intro hslash
        have hq := (List.cons_prefix_cons.mp hslash).1
        rw [← hq] at h
        exact h ⟨[], rest, rfl⟩
    have hlong : Text.dropLead (Text.points ['/', '*', '*']) (blockComment (.char '*' :: rest)) =
        rest ++ Text.points ['*', '/'] := Text.dropLead_append (Text.points ['/', '*', '*'])
    rw [blockBody, hlong, Text.dropLead_of_not_prefix hrest, Text.dropTail_append]
    exact (Text.dropLead_append [CodePoint.char '*']).symm
  · have hlong : ¬ Text.points ['/', '*', '*'] <+: blockComment (p :: rest) := by
      simp [blockComment, Text.points, Ne.symm hp]
    have hshort : Text.dropLead (Text.points ['/', '*']) (blockComment (p :: rest)) =
        p :: rest ++ Text.points ['*', '/'] := by
      rw [blockComment, List.append_assoc, Text.dropLead_append]
    have hstar : ¬ [CodePoint.char '*'] <+: p :: rest := by simp [Ne.symm hp]
    rw [blockBody, Text.dropLead_of_not_prefix hlong, hshort, Text.dropTail_append,
      Text.dropLead_of_not_prefix hstar]

/-- The text of a block comment is read from its body. -/
lemma commentText_blockComment (h : ¬ Text.points ['*', '/'] <:+: body) (hne : body ≠ []) :
    commentText (blockComment body) = innerText body := by
  have hblock : (Text.points ['/', '/']).isPrefixOf (blockComment body) = false := rfl
  rw [commentText]
  simp only [trim_blockComment, hblock, Bool.false_eq_true, if_false, blockBody_blockComment h hne]
  rw [Text.joinWith_eq_intercalate]
  rfl

lemma innerText_blank (h : ∀ p ∈ body, p.isBlank = true) : innerText body = [] := by
  have hstar : ¬ [CodePoint.char '*'] <+: body := by
    rintro ⟨rest, rfl⟩
    exact absurd (h (.char '*') (by simp)) (by decide)
  have hlines : ∀ line ∈ innerLines body, line.isEmpty = true := by
    intro line hline
    rw [innerLines, Text.dropLead_of_not_prefix hstar] at hline
    obtain ⟨raw, hraw, rfl⟩ := List.mem_map.mp hline
    rw [Text.trim_eq_nil fun p hp => h p (Text.mem_of_mem_lines hraw hp)]
    rfl
  have hnone : (innerLines body).dropWhile List.isEmpty = [] := by simpa using hlines
  rw [innerText, hnone]
  rfl

/-- Texts that are empty do not count among those that wait for a method. -/
lemma readElements_congr (h : waiting.filter (· != []) = waiting'.filter (· != [])) :
    readElements name waiting es = readElements name waiting' es := by
  induction es generalizing waiting waiting' with
  | nil => rfl
  | cons e es ih =>
    have hread : readMethod e waiting = readMethod e waiting' := by
      unfold readMethod
      rw [h]
    rw [readElements, readElements, hread]
    split_ifs with hleaf hcomment
    · exact ih (by rw [List.filter_append, List.filter_append, h])
    · exact ih h
    · rfl
    · rfl

/-- A comment without text changes nothing, wherever it stands among the elements. -/
lemma readElements_mute (hleaf : n.hasChildren = false) (hn : n.isComment = true → commentText n.value = [])
    (before : List Node) :
    readElements name waiting (before ++ n :: es) = readElements name waiting (before ++ es) := by
  induction before generalizing waiting with
  | nil =>
    rw [List.nil_append, List.nil_append, readElements]
    simp only [hleaf, Bool.not_false, if_true]
    refine readElements_congr ?_
    split_ifs with hcomment
    · simp [hn hcomment]
    · rfl
  | cons e before ih =>
    rw [List.cons_append, List.cons_append, readElements, readElements]
    simp only [ih]

/-- A comment without text behind the opening brace of a service changes nothing. -/
lemma readEntity_mute (hleaf : n.hasChildren = false) (hn : n.isComment = true → commentText n.value = [])
    {before : List Node} (hbefore : headLength ≤ before.length) (kind value : List CodePoint) (line : Option Int) :
    readEntity (.mk kind value line (before ++ n :: es)) = readEntity (.mk kind value line (before ++ es)) := by
  have hslot : ∀ i < headLength, ∀ rest : List Node,
      slotText (.mk kind value line (before ++ rest)) i = slotText (.mk kind value line before) i := by
    intro i hi rest
    rw [slotText, slotText, Node.children, Node.children, List.getElem?_append_left (by omega)]
  unfold readEntity
  rw [hslot 0 (by decide), hslot 0 (by decide)]
  simp only [hslot 1 (by decide), Node.children, Node.line, List.drop_append_of_le_length hbefore,
    readElements_mute hleaf hn]

/-- What becomes of a block comment. Its text is read from its body if and only if it has one; without a body it is a
slash. If the body is blank, the text is empty, and the service is read as if the comment were not there. -/
theorem blockComment_cleaned {body : List CodePoint} (h : ¬ Text.points ['*', '/'] <:+: body) :
    (commentText (blockComment body) = innerText body ↔ body ≠ []) ∧
      (body = [] → commentText (blockComment body) = "/") ∧
      (body ≠ [] → (∀ p ∈ body, p.isBlank = true) →
        commentText (blockComment body) = [] ∧
        ∀ (kind : List CodePoint) (line : Option Int) (before after : List Node), headLength ≤ before.length →
          ∀ (entity value : List CodePoint) (first : Option Int),
            readEntity (.mk entity value first (before ++ .mk kind (blockComment body) line [] :: after)) =
              readEntity (.mk entity value first (before ++ after))) := by
  have hempty : commentText (blockComment []) = "/" := by decide +kernel
  have hread : body ≠ [] → commentText (blockComment body) = innerText body := commentText_blockComment h
  refine ⟨⟨fun heq hnil => ?_, hread⟩, fun hnil => by rw [hnil, hempty], fun hne hblank => ?_⟩
  · subst hnil
    rw [hempty] at heq
    exact absurd heq (by decide +kernel)
  · have hnone : commentText (blockComment body) = [] := by
      rw [hread hne, innerText_blank hblank]
    refine ⟨hnone, fun kind line before after hbefore entity value first => ?_⟩
    exact readEntity_mute (n := .mk kind (blockComment body) line []) rfl (fun _ => hnone) hbefore entity value first

/-- Stars, slashes and four kinds of line ends. -/
def starredBody : String := "*\r\n * /first\x0b** second \u2028\t*\n"

theorem starredBody_cleaned :
    commentText (blockComment starredBody) = "/first\n* second" ∧
      commentText (blockComment "\t\n ") = [] ∧
      ∀ before after : List Node, headLength ≤ before.length →
        readEntity (.mk "service_def" [] none
            (before ++ .mk Node.commentKind (blockComment "\t\n ") none [] :: after)) =
          readEntity (.mk "service_def" [] none (before ++ after)) := by
  have hstarred : commentText (blockComment starredBody) = innerText starredBody :=
    (@blockComment_cleaned starredBody (by decide +kernel)).1.mpr (by decide +kernel)
  obtain ⟨htext, hmute⟩ := (@blockComment_cleaned "\t\n " (by decide +kernel)).2.2 (by decide +kernel)
    (List.all_eq_true.mp (by decide +kernel))
  exact ⟨hstarred.trans (by decide +kernel), htext, fun before after hbefore =>
    hmute Node.commentKind none before after hbefore "service_def" [] none⟩

/-- A comment without a body is documented as a slash. -/
theorem emptyComment_keeps_slash :
    ¬ Text.points ['*', '/'] <:+: [] ∧ innerText [] = [] ∧ commentText (blockComment []) = "/" ∧
      ((Proto.parse "service S\x7b\n/**/\nrpc A(X)returns(Y);\x7d").toOption.bind fun tree =>
        (extract tree).1.toOption.map (List.map fun s => s.methods.map fun m => (m.name, m.comments))) =
          some [[("A", [Text.points ['/']])]] := by
  exact ⟨by decide +kernel, by decide +kernel, by decide +kernel, by decide +kernel⟩

end Stubsmith.Service
