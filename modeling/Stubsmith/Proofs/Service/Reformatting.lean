import Stubsmith.Proofs.Proto.Settling
import Stubsmith.Proofs.Service.Lines
import Stubsmith.Proofs.Service.Transparency

/-!
# Layout does not matter

The leaves of the tree of an accepted text, comments left out, may be written down again with any blanks between
them. The new text is accepted, its tree is the old one without comments and up to lines, and it declares the
same services. This holds however closely the tokens stood together in the first text.
-/
namespace Stubsmith.Proto

variable {items : List Tree}

/-- Marks without comments are tokens. -/
lemma eq_map_tokensOf {ms : List Mark} (h : ∀ c, Mark.comment c ∉ ms) : ms = (tokensOf ms).map Mark.token := by
  induction ms with
  | nil => rfl
  | cons m ms ih =>
    cases m with
    | comment c => exact absurd List.mem_cons_self (h c)
    | token k => rw [tokensOf_token, List.map_cons, ← ih fun c hc => h c (List.mem_cons_of_mem _ hc)]

/-- The leaves of the syntax tree of a file, without comments, are its tokens. -/
lemma leaves_file (h : (Tree.node .file items).Sound) :
    (Tree.node .file items).tokens.map Token.leaf =
      ((Tree.node .file items).toNode []).leaves.map Node.unlined := by
  have hnone : ∀ c, Mark.comment c ∉ (Tree.node .file items).marks [] := fun _ hc =>
    List.not_mem_nil (Tree.mem_of_comment_mem_marks hc)
  rw [Tree.leaves_toNode (fun k hk => (h.spelled k hk).ne_nil) (by simp), eq_map_tokensOf hnone, Tree.tokensOf_marks,
    List.map_map, List.map_map]
  rfl

/-- Of the leaves of an accepted text, none is a word or a name that would be taken for a keyword once blanks
stand around it. -/
lemma leaves_settled (h : (Tree.node .file items).Sound)
    (hclear : Stack.Clear none (Tree.node .file items).tokens)
    (hmarked : Stack.Marked none (Tree.node .file items).tokens) :
    ((Tree.node .file items).toNode []).Undisturbed ∧ ((Tree.node .file items).toNode []).StreamsMarked :=
  ⟨(isChain_leaves (leaves_file h) (by simp [Node.Misread]) fun _ _ => not_congr Token.misread_leaf).mpr hclear,
    (isChain_leaves (leaves_file h) (by simp [Node.BareStream])
      fun _ _ => not_congr Token.bareStream_leaf).mpr hmarked⟩

end Stubsmith.Proto

namespace Stubsmith.Service

open Proto

/-- The leaves of the tree of an accepted text, comments left out, written in order with blanks between them, are
parsed to that tree without its comments, line numbers apart, and declare the same services but for the comments
on their methods. -/
theorem parse_reformatted {text : String} {tree : Node} {laid : List Char} (h : parse text = .ok tree)
    (hl : Layout (tree.withoutComments.leaves.map fun n => Text.chars n.value) laid) :
    ∃ n services, parse (String.ofList laid) = .ok n ∧ n.unlined = tree.withoutComments.unlined ∧
      (extract tree).1 = .ok services ∧ (extract n).1 = .ok (services.map Service.withoutComments) := by
  obtain ⟨services, hservices⟩ := exists_extract h
  obtain ⟨t, comments, hread, rfl⟩ := parse_eq_ok_iff.mp h
  obtain ⟨items, ms, rfl, hms, hsound, -, rfl⟩ := read_sound hread
  obtain ⟨hclear, hmarked⟩ := read_settled hread
  obtain ⟨hundisturbed, hstreams⟩ := leaves_settled hsound hclear hmarked
  rw [Tree.withoutComments_toNode] at hl ⊢
  have hderivation := hsound.derives.derivation hsound.spelled
  obtain ⟨t, hnodes, hok, -⟩ := hl.reads hderivation hstreams
  obtain ⟨r, hrun, hclose, hcomments⟩ := hok hundisturbed
  have hparse := parse_of_run hrun hclose
  rw [hcomments] at hparse
  refine ⟨_, services, hparse, hnodes, hservices, ?_⟩
  calc (extract (t.toNode [])).1 = (extract ((Proto.Tree.node .file items).toNode [])).1 := extract_congr hnodes
    _ = .ok (services.map Service.withoutComments) := by
      rw [extract_withoutComments hsound hms.comment_ne_nil, hservices]
      rfl

/-- Keywords glued to names, a comment inside a service, a name that begins with `stream` and a word behind a
block. -/
def crampedService : String :=
  "option(o)=1;serviceS\x7brpcD(.stream)returns(stream.E);//c\nrpcA(B)returns(streams.C)\x7bx\x7b\x7drpcs\x7d\x7d"

theorem crampedService_reformatted : ∃ tree n services, parse crampedService = .ok tree ∧
    parse (String.ofList (Text.joinWith ['\n', '\t']
      (tree.withoutComments.leaves.map fun n => Text.chars n.value))) = .ok n ∧
    n.unlined = tree.withoutComments.unlined ∧ (extract n).1 = .ok services ∧
    services.map (fun s => (s.name, s.methods.map fun m => [m.name, Text.spelled m.request, Text.spelled m.response])) =
      [("S", [["A", "B", "streams.C"]])] := by
  have hextract : ((parse crampedService).toOption.bind fun tree => (extract tree).1.toOption.map fun services =>
      (services.map Service.withoutComments).map fun s =>
        (s.name, s.methods.map fun m => [m.name, Text.spelled m.request, Text.spelled m.response])) =
        some [("S", [["A", "B", "streams.C"]])] := by decide +kernel
  obtain ⟨tree, htree, hfound⟩ := Option.bind_eq_some_iff.mp hextract
  obtain ⟨found, hservices, hmethods⟩ := Option.map_eq_some_iff.mp hfound
  have h := eq_ok_of_toOption htree
  have hl := layout_joinWith (s := ['\n', '\t']) (by decide) (List.all_eq_true.mp (by decide))
    (tree.withoutComments.leaves.map fun n => Text.chars n.value)
  obtain ⟨n, services, hn, hsame, hbefore, hafter⟩ := parse_reformatted h hl
  cases hbefore.symm.trans (eq_ok_of_toOption hservices)
  exact ⟨tree, n, _, h, hn, hsame, hafter, hmethods⟩

end Stubsmith.Service
