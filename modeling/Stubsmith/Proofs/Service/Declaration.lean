import Stubsmith.Proofs.Service.Extraction

/-!
# What a file declares

The services that are extracted from a text are those that its tokens declare, in order: each with its name and
with its methods without streams, in the order of the text. Comments have no part in it.
-/
namespace Stubsmith

open Text (CodePoint)

namespace Proto

/-- The methods of a service without streams, in order: their names and types. -/
def declaredMethods (service : List Tree) : List (String × List CodePoint × List CodePoint) :=
  ((bodyElements service).filter Tree.isUnary).map fun m =>
    (declaredName m.children, declaredTypes m.children)

/-- The services of a file in order: their names and their methods without streams. -/
def Tree.declarations (file : Tree) : List (String × List (String × List CodePoint × List CodePoint)) :=
  file.services.map fun service => (declaredName service, declaredMethods service)

end Proto

namespace Service

open Proto

variable {cs ts : List Tree} {comments bs : List Comment} {text : String} {tree : Node}

/-- The name of a service, and the names and types of its methods. -/
def outline (s : Service) : String × List (String × List CodePoint × List CodePoint) :=
  (s.name, s.methods.map fun m => (m.name, m.request, m.response))

/-- The services are those that the text declares: the file is read from the text and has its tokens, and it declares
the services in order. -/
structure DeclaredIn (text : List Char) (file : Tree) (services : List Service) : Prop where
  read : ∃ comments, Proto.read text = .ok (file, comments)
  derives : file.Derives
  piece : file.piece = .rule .file
  tokens : ∃ ms, Scanned .start text ms ∧ file.tokens = tokensOf ms
  outlines : services.map outline = file.declarations

/-- The methods that take comments are the elements that are methods without streams. -/
lemma fst_collect (pending : List Comment) :
    (collect pending ts bs).map Prod.fst = ts.filter Tree.isUnary := by
  induction ts generalizing pending bs with
  | nil => rfl
  | cons e es ih =>
    rw [collect]
    by_cases hp : e.piece = .token .semicolon
    · rw [if_pos hp, ih, List.filter_cons_of_neg (by simp [isUnary_token hp])]
    · rw [if_neg hp, List.map_append, ih]
      by_cases hu : e.isUnary = true
      · rw [if_pos hu, List.filter_cons_of_pos hu]
        rfl
      · rw [if_neg hu, List.filter_cons_of_neg hu]
        rfl

/-- A service is read with the name and the methods that it declares, whatever the comments are. -/
lemma readEntity_outline (hsound : (Proto.Tree.node .serviceDef cs).Sound) (hc : ∀ c ∈ comments, c.text ≠ []) :
    (readEntity ((Proto.Tree.node .serviceDef cs).toNode comments)).1.map (Option.map outline) =
      .ok (some (declaredName cs, declaredMethods cs)) := by
  obtain ⟨keyword, title, opening, body, closing, h⟩ := hsound.derives.service
  obtain ⟨s, hs, hname, hmethods⟩ := readEntity_collect hsound h hc
  have hview : s.methods.map (fun m => (m.name, m.request, m.response)) = declaredMethods cs := by
    calc s.methods.map (fun m => (m.name, m.request, m.response))
        = (s.methods.map parts).map fun p => (p.1, p.2.1) := by rw [List.map_map]; rfl
      _ = ((collect [] body (bodyComments cs comments)).map Prod.fst).map fun m =>
            (declaredName m.children, declaredTypes m.children) := by
          rw [hmethods, List.map_map, List.map_map]
          rfl
      _ = declaredMethods cs := by
          rw [fst_collect, declaredMethods, h.bodyElements_eq,
            List.filter_cons_of_neg (by simp [isUnary_token h.opening])]
  rw [hs, Except.map, Option.map_some, outline, hname, hview]

/-- The services of an accepted text are those that it declares. -/
theorem declaredIn_of_parse (h : parse text = .ok tree) :
    ∃ services file, (extract tree).1 = .ok services ∧ DeclaredIn text.toList file services := by
  obtain ⟨items, ms, hread, hms, hsound, htokens, rfl⟩ := parse_eq_ok h
  have houtlines : (extract ((Proto.Tree.node .file items).toNode (commentsOf ms))).1.map (List.map outline) =
      .ok (Proto.Tree.node .file items).declarations := by
    rw [extract_file hsound hms.comment_ne_nil]
    exact (inOrder_view fun cs hcs => readEntity_outline (service_sound hsound hcs) hms.comment_ne_nil).1
  obtain ⟨services, hservices, hshown⟩ := exists_of_map_eq_ok houtlines
  exact ⟨services, _, hservices, ⟨_, hread⟩, hsound.derives, rfl, ⟨ms, hms, htokens⟩, hshown.symm⟩

/-- Every accepted text has its services. -/
lemma exists_extract (h : parse text = .ok tree) : ∃ services, (extract tree).1 = .ok services := by
  obtain ⟨services, _, hservices, -⟩ := declaredIn_of_parse h
  exact ⟨services, hservices⟩

end Service

end Stubsmith
