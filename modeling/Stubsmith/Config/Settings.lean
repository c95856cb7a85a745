import Stubsmith.Data.Issue
import Stubsmith.Files.Route
import Stubsmith.Yaml.Document

/-!
# Settings

The defaults that a configuration file can give, and how they are read from a mapping. Every issue is
reported: those of the settings in their order, then the keys that are no settings in the order of the
file.
-/
namespace Stubsmith.Config

open Files (Path Route)
open Text (CodePoint)
open Yaml (Scalar Datum Document)

/-- Defaults for a run. -/
structure Settings where
  input : Option Route := none
  out : Option Route := none
  writer : Option (List CodePoint) := none
  recursive : Bool := false
  deriving DecidableEq, Repr

/-- A path or nothing. -/
def checkPath : Datum → Checked (Option Route)
  | .scalar .null => .ok none
  | .scalar (.text s) => .ok (some (Route.ofPoints s))
  | _ => .error [⟨.pathType, []⟩]

/-- A text or nothing; bytes count as the text that they encode. -/
def checkWriter : Datum → Checked (Option (List CodePoint))
  | .scalar .null => .ok none
  | .scalar (.text s) => .ok (some s)
  | .scalar (.bytes b) =>
    match Text.decode b with
    | .ok cs => .ok (some (Text.points cs))
    | .error _ => .error [⟨.stringUnicode, []⟩]
  | _ => .error [⟨.stringType, []⟩]

/-- The words for yes and no, in any case. -/
def flagOfText (s : String) : Checked Bool :=
  let word := String.ofList (s.toList.map Char.toLower)
  if ["1", "on", "t", "true", "y", "yes"].contains word then .ok true
  else if ["0", "off", "f", "false", "n", "no"].contains word then .ok false
  else .error [⟨.boolParsing, []⟩]

/-- The least integer above those of 64 bits. -/
def wordLimit : Int := (Nat.pow 2 63 : Nat)

/-- An integer of 64 bits. -/
def isWord (i : Int) : Bool := -wordLimit ≤ i && i < wordLimit

/-- Yes for one and no for zero. -/
def flagOfInt (i : Int) : Checked Bool :=
  if i = 0 then .ok false
  else if i = 1 then .ok true
  else if isWord i then .error [⟨.boolParsing, []⟩]
  else .error [⟨.boolType, []⟩]

/-- Yes or no, also as a word, as a text in bytes or as one of the numbers one and zero. A floating-point
number counts as an integer of 64 bits if it is above the least of them. -/
def checkFlag : Datum → Checked Bool
  | .scalar (.bool b) => .ok b
  | .scalar (.int i) => flagOfInt i
  | .scalar (.float f) =>
    match (Scalar.float f).whole? with
    | some i => if i = -wordLimit then .error [⟨.boolType, []⟩] else flagOfInt i
    | none => .error [⟨.boolType, []⟩]
  | .scalar (.text s) =>
    if s.any (·.isHalf) then .error [⟨.stringUnicode, []⟩]
    else flagOfText (String.ofList (Text.chars s))
  | .scalar (.bytes b) =>
    match Text.decode b with
    | .ok cs => flagOfText (String.ofList cs)
    | .error _ => .error [⟨.boolParsing, []⟩]
  | _ => .error [⟨.boolType, []⟩]

/-- The number of the node under a text key. -/
def lookup (name : String) : List (Scalar × Nat) → Option Nat
  | [] => none
  | (.text k, n) :: es => if k = Text.points name.toList then some n else lookup name es
  | _ :: es => lookup name es

/-- A setting that may be left out. -/
def setting {α : Type} (doc : Document) (es : List (Scalar × Nat)) (name : String) (default : α)
    (check : Datum → Checked α) : Checked α :=
  match lookup name es with
  | some n => Checked.under (.field name) (check (doc.get n))
  | none => .ok default

/-- The names of the settings. -/
def names : List String := ["proto", "out", "writer", "recursive"]

/-- The step to a key that is no text: a number, if it is one of 64 bits, else its text, if it is not
too long. -/
def keyStep : Scalar → Step
  | .bool b => .index (if b then 1 else 0)
  | .int i =>
    if isWord i then .index i
    else if i.natAbs < Nat.pow 10 Yaml.digitLimit then .field (Text.signedDecimal i)
    else .field "<unprintable int object>"
  | k => .field k.shown

/-- What is wrong with a key. -/
def keyIssue? : Scalar → Option Issue
  | .text s =>
    let name := String.ofList (Text.chars s)
    if names.contains name then none else some ⟨.extraForbidden, [.field name]⟩
  | k => some ⟨.invalidKey, [keyStep k]⟩

/-- No keys but those of the settings. -/
def checkKeys (es : List (Scalar × Nat)) : Checked Unit :=
  match es.filterMap fun (k, _) => keyIssue? k with
  | [] => .ok ()
  | issues => .error issues

/-- The key is a text that cannot be told from others, since it has half a character in it. -/
def isBrokenKey : Scalar → Bool
  | .text s => s.any (·.isHalf)
  | _ => false

/-- The settings in a mapping of a document. Nothing is said of its parts if a key cannot be told from
others. -/
def Settings.ofEntries (doc : Document) (es : List (Scalar × Nat)) : Checked Settings :=
  if es.any fun (k, _) => isBrokenKey k then .error [⟨.stringUnicode, []⟩]
  else ((setting doc es "proto" none checkPath).both <| (setting doc es "out" none checkPath).both <|
    (setting doc es "writer" none checkWriter).both <|
    (setting doc es "recursive" false checkFlag).both <| checkKeys es).map
  fun (input, out, writer, recursive, _) => { input, out, writer, recursive }

/-- A relative path starts at `base`. -/
def anchor (base : Path) (r : Route) : Route :=
  if r.isAbsolute then r else (Route.ofPath base).join r

/-- The settings with their relative paths starting at `base`. -/
def Settings.anchored (s : Settings) (base : Path) : Settings :=
  { s with input := s.input.map (anchor base), out := s.out.map (anchor base) }

end Stubsmith.Config
