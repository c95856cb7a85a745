import Stubsmith.Text.Lower
import Stubsmith.Text.Quoted

/-!
# Code points

An escape can name any code point of Unicode, also one of those that serve only as half of a pair of
sixteen-bit units and stand for no character by themselves. A text that was not read from bytes is
therefore a list of code points. A half is no letter, no digit and no blank, it is always escaped when
it is shown, and a text with a half in it cannot be encoded.
-/
namespace Stubsmith.Text

/-- A character, or the half of a pair with a number from 0xD800 to 0xDFFF. -/
inductive CodePoint
  | char (c : Char)
  | half (n : Nat)
  deriving DecidableEq, Repr

namespace CodePoint

/-- The code point with a number below 0x110000. -/
def ofNat (n : Nat) : CodePoint := if 0xD800 ≤ n && n ≤ 0xDFFF then half n else char (Char.ofNat n)

def isHalf : CodePoint → Bool
  | char _ => false
  | half _ => true

/-- The character, with one in place of a half that belongs to no class. -/
def toChar : CodePoint → Char
  | char c => c
  | half _ => '�'

def isBlank (p : CodePoint) : Bool := Text.isBlank p.toChar

/-- A half as it is escaped. -/
def escapeHalf (n : Nat) : List Char := '\\' :: 'u' :: hexadecimal 4 n

/-- One code point between the quotes `q`. -/
def escape (q : Char) : CodePoint → List Char
  | char c => escapeQuoted q c
  | half n => escapeHalf n

end CodePoint

/-- The code points of a text without halves. -/
def points (cs : List Char) : List CodePoint := cs.map .char

/-- The characters of a text, with one that belongs to no class in place of each half. -/
def chars (ps : List CodePoint) : List Char := ps.map (·.toChar)

/-- A text of characters is one of code points. -/
instance : Coe String (List CodePoint) := ⟨fun s => points s.toList⟩

@[simp] theorem chars_points (cs : List Char) : chars (points cs) = cs := by
  induction cs with
  | nil => rfl
  | cons c cs ih => simpa [chars, points, CodePoint.toChar] using ih

theorem chars_append (ps qs : List CodePoint) : chars (ps ++ qs) = chars ps ++ chars qs := List.map_append

theorem points_append (cs ds : List Char) : points (cs ++ ds) = points cs ++ points ds := List.map_append

theorem points_inj {cs ds : List Char} : points cs = points ds ↔ cs = ds := by
  refine ⟨fun h => ?_, congrArg points⟩
  rw [← chars_points cs, h, chars_points]

@[simp] theorem coe_inj {s t : String} : (s : List CodePoint) = t ↔ s = t :=
  points_inj.trans String.toList_inj

@[simp] theorem points_eq_nil {cs : List Char} : points cs = [] ↔ cs = [] := List.map_eq_nil_iff

/-- The text without its leading blanks. -/
def trimLead (ps : List CodePoint) : List CodePoint := ps.dropWhile (·.isBlank)

/-- The text without the blanks at either end. -/
def trim (ps : List CodePoint) : List CodePoint := (trimLead (trimLead ps).reverse).reverse

def charText (ps : List CodePoint) : String := String.ofList (chars ps)

/-- There is a half in the text. -/
def hasHalf (ps : List CodePoint) : Bool := ps.any (·.isHalf)

@[simp] theorem hasHalf_points (cs : List Char) : hasHalf (points cs) = false := by
  simp [hasHalf, points, CodePoint.isHalf]

/-- A text without halves is one of characters. -/
theorem points_chars {ps : List CodePoint} (h : hasHalf ps = false) : points (chars ps) = ps := by
  induction ps with
  | nil => rfl
  | cons p ps ih =>
    simp only [hasHalf, List.any_cons, Bool.or_eq_false_iff] at h
    cases p with
    | char c => exact congrArg (CodePoint.char c :: ·) (ih h.2)
    | half n => cases h.1

/-- The text as one of characters, if it has no halves. -/
def plain? (ps : List CodePoint) : Option String := if hasHalf ps then none else some (charText ps)

@[simp] theorem plain?_points (cs : List Char) : plain? (points cs) = some (String.ofList cs) := by
  simp [plain?, charText]

/-- The text with its halves escaped. -/
def spelled (ps : List CodePoint) : String :=
  String.ofList (ps.flatMap fun
    | .char c => [c]
    | .half n => CodePoint.escapeHalf n)

@[simp] theorem spelled_points (cs : List Char) : spelled (points cs) = String.ofList cs := by
  simp [spelled, points, List.flatMap_map]

/-- The text between quotes, its halves escaped. -/
def quotedPoints (ps : List CodePoint) : String :=
  let q := quoteFor (chars ps)
  String.ofList (q :: ps.flatMap (·.escape q) ++ [q])

/-- Where the first halves stand in a text, and how many there are. -/
def firstHalves (ps : List CodePoint) : Nat × Nat :=
  let before := ps.takeWhile (!·.isHalf)
  (before.length, ((ps.drop before.length).takeWhile (·.isHalf)).length)

/-- Why a text with halves cannot be encoded. -/
def encodingRefusal (ps : List CodePoint) : String :=
  let (start, count) := firstHalves ps
  let place :=
    if count = 1 then "character " ++ quotedPoints ((ps.drop start).take 1) ++ " in position " ++ decimal start
    else "characters in position " ++ decimal start ++ "-" ++ decimal (start + count - 1)
  "'utf-8' codec can't encode " ++ place ++ ": surrogates not allowed"

/-- The text in lower case; a half stays as it is. -/
def lowerPoints (ps : List CodePoint) : List CodePoint :=
  (ps.zip (lowerParts [] (chars ps))).flatMap fun
    | (.half n, _) => [.half n]
    | (.char _, part) => points part

end Stubsmith.Text
