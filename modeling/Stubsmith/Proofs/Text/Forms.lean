import Mathlib.Data.List.Basic
import Stubsmith.Proofs.Text.Encoding
import Stubsmith.Text.Lines

/-!
# The forms of a text

A text can be written with or without a byte order mark before it, and its lines can end in three ways. Reading takes
one mark away and makes every line end a newline, so that the text comes back from each of its forms. Bytes that encode
no text are refused, unless they are the beginning of a mark and nothing else.
-/
namespace Stubsmith.Text

variable {c : Char} {cs : List Char} {bytes : Bytes}

/-- The ways to end a line. -/
inductive LineEnd
  | newline
  | returnNewline
  | returnOnly
  deriving DecidableEq, Repr

namespace LineEnd

def chars : LineEnd → List Char
  | newline => ['\n']
  | returnNewline => ['\r', '\n']
  | returnOnly => ['\r']

/-- The text with every newline written as this line end. -/
def write (e : LineEnd) (cs : List Char) : List Char := cs.flatMap fun c => if c = '\n' then e.chars else [c]

lemma write_newline (e : LineEnd) (cs : List Char) : e.write ('\n' :: cs) = e.chars ++ e.write cs := rfl

lemma write_other (e : LineEnd) (h : c ≠ '\n') (cs : List Char) : e.write (c :: cs) = c :: e.write cs := by
  rw [write, List.flatMap_cons, if_neg h]
  rfl

lemma newline_not_mem_write (cs : List Char) : '\n' ∉ returnOnly.write cs := by
  rw [write, List.mem_flatMap]
  rintro ⟨c, -, hc⟩
  split_ifs at hc with h
  · exact absurd hc (by decide)
  · exact h (List.mem_singleton.mp hc).symm

/-- Line ends bring no other character to the front. -/
lemma head?_write (e : LineEnd) (hne : c ≠ '\n') (hret : c ≠ '\r') (h : cs.head? ≠ some c) :
    (e.write cs).head? ≠ some c := by
  cases cs with
  | nil => exact h
  | cons d cs =>
    by_cases hd : d = '\n'
    · subst hd
      rw [write_newline]
      cases e <;> simpa [chars, eq_comm]
    · rwa [write_other e hd]

end LineEnd

lemma unifyNewlines_other (h : c ≠ '\r') (cs : List Char) : unifyNewlines (c :: cs) = c :: unifyNewlines cs := by
  rw [unifyNewlines, if_neg h]
  rintro ds rfl
  exact absurd rfl h

lemma unifyNewlines_return (h : '\n' ∉ cs) : unifyNewlines ('\r' :: cs) = '\n' :: unifyNewlines cs := by
  rw [unifyNewlines, if_pos rfl]
  rintro ds - rfl
  exact h (List.mem_cons_self ..)

/-- However the lines end, the text without returns comes back. -/
lemma unifyNewlines_write (e : LineEnd) (h : '\r' ∉ cs) : unifyNewlines (e.write cs) = cs := by
  induction cs with
  | nil => rfl
  | cons c cs ih =>
    rw [List.mem_cons, not_or] at h
    by_cases hc : c = '\n'
    · subst hc
      rw [LineEnd.write_newline]
      cases e with
      | newline =>
        change unifyNewlines ('\n' :: LineEnd.newline.write cs) = '\n' :: cs
        rw [unifyNewlines_other (by decide), ih h.2]
      | returnNewline =>
        change unifyNewlines ('\r' :: '\n' :: LineEnd.returnNewline.write cs) = '\n' :: cs
        rw [unifyNewlines, ih h.2]
      | returnOnly =>
        -- The return of one line end must not meet a newline that begins the next.
        change unifyNewlines ('\r' :: LineEnd.returnOnly.write cs) = '\n' :: cs
        rw [unifyNewlines_return (LineEnd.newline_not_mem_write cs), ih h.2]
    · rw [LineEnd.write_other e hc, unifyNewlines_other (Ne.symm h.1), ih h.2]

/-- The character that the byte order mark encodes. -/
def markChar : Char := '\uFEFF'

/-- The bytes are the encoding of a text. -/
def IsUtf8 (bytes : Bytes) : Prop := ∃ cs, bytes = encode cs

/-- The bytes are the beginning of a byte order mark that ends too early. -/
def IsCutMark (bytes : Bytes) : Prop := bytes = [0xEF] ∨ bytes = [0xEF, 0xBB]

lemma not_isUtf8_of_isCutMark (h : IsCutMark bytes) : ¬ IsUtf8 bytes := by
  rintro ⟨cs, rfl⟩
  rcases h with h | h <;> cases decode_eq_ok.mpr h.symm

/-- Bytes that begin with the mark encode the texts that begin with its character. -/
lemma mark_append_eq_encode {rest : Bytes} :
    byteOrderMark ++ rest = encode cs ↔ ∃ ds, cs = markChar :: ds ∧ rest = encode ds := by
  have hmark : decode (byteOrderMark ++ rest) = (markChar :: ·) <$> decodeFrom 3 none rest := rfl
  rw [← decode_eq_ok, hmark, cons_map_eq_ok]
  simp only [decodeFrom_eq_ok]

lemma isUtf8_mark_append {rest : Bytes} : IsUtf8 (byteOrderMark ++ rest) ↔ IsUtf8 rest := by
  simp [IsUtf8, mark_append_eq_encode]

lemma isCutMark_of_begins (h : bytes <+: byteOrderMark) (hne : bytes ≠ []) (hmark : ¬ byteOrderMark <+: bytes) :
    IsCutMark bytes := by
  simp only [byteOrderMark, List.prefix_cons_iff, List.prefix_nil] at h
  rcases h with rfl | ⟨-, rfl, rfl | ⟨-, rfl, rfl | ⟨-, rfl, rfl⟩⟩⟩
  · exact absurd rfl hne
  · exact Or.inl rfl
  · exact Or.inr rfl
  · exact absurd (List.prefix_refl _) hmark

lemma decodeMarked_mark (rest : Bytes) : decodeMarked (byteOrderMark ++ rest) = decode rest := rfl

lemma decodeMarked_cut (h : IsCutMark bytes) : decodeMarked bytes = .ok [] := by
  rcases h with rfl | rfl <;> rfl

lemma decodeMarked_plain (hmark : ¬ byteOrderMark <+: bytes) (hcut : ¬ IsCutMark bytes) :
    decodeMarked bytes = decode bytes := by
  rw [decodeMarked, if_neg (by rwa [List.isPrefixOf_iff_prefix])]
  split_ifs with h
  · -- What is left of the beginnings of a mark is the empty one.
    by_cases hne : bytes = []
    · rw [hne]
      rfl
    · exact absurd (isCutMark_of_begins (List.isPrefixOf_iff_prefix.mp h) hne hmark) hcut
  · rfl

/-- A text is read with a mark before it and without. -/
lemma decodeMarked_encode (h : cs.head? ≠ some markChar) (marked : Bool) :
    decodeMarked ((if marked then byteOrderMark else []) ++ encode cs) = .ok cs := by
  cases marked with
  | true => exact (decodeMarked_mark _).trans (decode_eq_ok.mpr rfl)
  | false =>
    have hmark : ¬ byteOrderMark <+: encode cs := by
      rintro ⟨rest, hrest⟩
      obtain ⟨ds, rfl, -⟩ := mark_append_eq_encode.mp hrest
      exact h rfl
    have hcut : ¬ IsCutMark (encode cs) := fun hcut => not_isUtf8_of_isCutMark hcut ⟨cs, rfl⟩
    exact (decodeMarked_plain hmark hcut).trans (decode_eq_ok.mpr rfl)

/-- Bytes are refused exactly if they are no encoding and no beginning of a mark. -/
lemma decodeMarked_eq_error : (∃ fault, decodeMarked bytes = .error fault) ↔ ¬ IsUtf8 bytes ∧ ¬ IsCutMark bytes := by
  have hdecode (bs : Bytes) : (∃ fault, decode bs = .error fault) ↔ ¬ IsUtf8 bs := by
    rw [decode_eq_error, IsUtf8, not_exists]
  by_cases hmark : byteOrderMark <+: bytes
  · obtain ⟨rest, rfl⟩ := hmark
    have hcut : ¬ IsCutMark (byteOrderMark ++ rest) := by simp [IsCutMark, byteOrderMark]
    rw [decodeMarked_mark, hdecode, isUtf8_mark_append]
    exact (and_iff_left hcut).symm
  · by_cases hcut : IsCutMark bytes
    · simp [decodeMarked_cut hcut, hcut]
    · rw [decodeMarked_plain hmark hcut, hdecode]
      exact (and_iff_left hcut).symm

end Stubsmith.Text
