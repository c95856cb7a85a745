import Stubsmith.Generation.Source
import Stubsmith.Proofs.Files.Extension
import Stubsmith.Proofs.Text.Forms

/-!
# The same text in other bytes

A proto file may hold its text in any form: what is read from it is what stands in the text, down to the lines of the
tree and the place of an error. The files that are refused for their bytes are those that hold no form of a text.
-/
namespace Stubsmith.Generation

open Files (Path FileSystem)
open Text (LineEnd Bytes)

variable {fs : FileSystem} {p : Path} {bytes : Bytes} {text : String}

/-- The bytes of a text with these line ends, behind a byte order mark or not. -/
def written (e : LineEnd) (marked : Bool) (text : String) : Bytes :=
  (if marked then Text.byteOrderMark else []) ++ Text.encode (e.write text.toList)

/-- A file gives what a text gives: the same tree with the same lines, or an error with the same message, line and
column. -/
inductive SameResult : Except SourceError Proto.Node → Except Proto.ParseError Proto.Node → Prop
  | tree (t : Proto.Node) : SameResult (.ok t) (.ok t)
  | error {e e' : Proto.ParseError} (text : e.text = e'.text) (line : e.line = e'.line)
      (column : e.column = e'.column) : SameResult (.error (.parse e)) (.error e')

/-- The text comes back from its bytes, whichever they are. -/
lemma sourceText_written (e : LineEnd) (marked : Bool) (hreturn : '\r' ∉ text.toList)
    (hmark : text.toList.head? ≠ some Text.markChar) : sourceText (written e marked text) = .ok text := by
  have hhead := e.head?_write (by decide) (by decide) hmark
  rw [sourceText, written, Text.decodeMarked_encode hhead, Except.map, Text.unifyNewlines_write e hreturn,
    String.ofList_toList]

lemma sourceText_eq_error :
    (∃ fault, sourceText bytes = .error fault) ↔ ¬ Text.IsUtf8 bytes ∧ ¬ Text.IsCutMark bytes := by
  rw [← Text.decodeMarked_eq_error, sourceText]
  cases Text.decodeMarked bytes <;> simp [Except.map]

lemma parseBytes_written (source : String) (e : LineEnd) (marked : Bool) (hreturn : '\r' ∉ text.toList)
    (hmark : text.toList.head? ≠ some Text.markChar) :
    parseBytes source (written e marked text) = Proto.parseFrom (some source) text := by
  rw [parseBytes, sourceText_written e marked hreturn hmark]

/-- A file is refused for its bytes only if its text cannot be read: no error of the text is taken for one. -/
lemma parseBytes_refused {source : String} :
    (∃ reason, parseBytes source bytes = .error ⟨some source, .notUtf8 reason⟩) ↔
      ¬ Text.IsUtf8 bytes ∧ ¬ Text.IsCutMark bytes := by
  rw [← sourceText_eq_error, parseBytes]
  cases sourceText bytes with
  | error fault => simp
  | ok text =>
    simp only [reduceCtorEq, exists_false, iff_false, not_exists]
    intro reason
    unfold Proto.parseFrom
    cases Proto.parse text <;> simp [Except.mapError]

lemma mapError_eq_parse {r : Except Proto.ParseError Proto.Node} {e : Proto.ParseError} :
    r.mapError SourceError.parse = .error (.parse e) ↔ r = .error e := by
  cases r <;> simp [Except.mapError]

lemma parseFile_of_stat (h : fs.stat p = .ok (.file bytes)) :
    (parseFile fs p).1 = (parseBytes p.text bytes).mapError .parse := by
  rw [parseFile, FileSystem.readFile_of_file h]
  dsimp only
  cases parseBytes p.text bytes <;> rfl

/-- The source is only named in an error. -/
lemma sameResult_parseFrom (source source' : Option String) (text : String) :
    SameResult ((Proto.parseFrom source text).mapError .parse) (Proto.parseFrom source' text) := by
  unfold Proto.parseFrom
  cases Proto.parse text with
  | error e => exact .error rfl rfl rfl
  | ok tree => exact .tree tree

/-- A file that holds a text in one of its forms gives what the text gives, and the files that are refused for their
bytes are those that hold no encoding of a text and no beginning of a mark. -/
theorem parseFile_written (fs : FileSystem) (p : Path) :
    (∀ (text : String) (e : LineEnd) (marked : Bool), '\r' ∉ text.toList →
      text.toList.head? ≠ some Text.markChar → fs.stat p = .ok (.file (written e marked text)) →
      ∀ source, SameResult (parseFile fs p).1 (Proto.parseFrom source text)) ∧
    ∀ bytes, fs.stat p = .ok (.file bytes) →
      ((∃ reason, (parseFile fs p).1 = .error (.parse ⟨some p.text, .notUtf8 reason⟩)) ↔
        ¬ Text.IsUtf8 bytes ∧ ¬ Text.IsCutMark bytes) := by
  constructor
  · intro text e marked hreturn hmark hstat source
    rw [parseFile_of_stat hstat, parseBytes_written p.text e marked hreturn hmark]
    exact sameResult_parseFrom (some p.text) source text
  · intro bytes hstat
    simp only [parseFile_of_stat hstat, mapError_eq_parse]
    exact parseBytes_refused

/-- A text behind a mark, whose comment ends with a return, and two bytes of a mark with a blank behind them. -/
def oddFiles : FileSystem where
  entries := [(["a.proto"], .file (written .returnOnly true "// é\nservice S\x7b\x7d")),
    (["b.proto"], .file [0xEF, 0xBB, 0x20])]
  here := []

theorem oddFiles_parsed :
    SameResult (parseFile oddFiles (.ofString "a.proto")).1 (Proto.parseFrom none "// é\nservice S\x7b\x7d") ∧
      (parseFile oddFiles (.ofString "a.proto")).1.toOption.map (·.children.map Proto.Node.line) = some [some 2] ∧
      ∃ reason, (parseFile oddFiles (.ofString "b.proto")).1 = .error (.parse ⟨some "b.proto", .notUtf8 reason⟩) := by
  have hmarked : oddFiles.stat (.ofString "a.proto") =
      .ok (.file (written .returnOnly true "// é\nservice S\x7b\x7d")) := by decide +kernel
  have hcut : oddFiles.stat (.ofString "b.proto") = .ok (.file [0xEF, 0xBB, 0x20]) := by decide +kernel
  have hname : (Path.ofString "b.proto").text = "b.proto" := by decide +kernel
  have hinvalid : ¬ Text.IsUtf8 [0xEF, 0xBB, 0x20] := by
    rintro ⟨cs, hcs⟩
    cases Text.decode_eq_ok.mpr hcs
  refine ⟨?_, by decide +kernel, ?_⟩
  · exact (parseFile_written oddFiles _).1 _ _ _ (by decide +kernel) (by decide +kernel) hmarked none
  · obtain ⟨reason, herror⟩ :=
      ((parseFile_written oddFiles _).2 _ hcut).mpr ⟨hinvalid, by simp [Text.IsCutMark]⟩
    exact ⟨reason, by rw [herror, hname]⟩

end Stubsmith.Generation
