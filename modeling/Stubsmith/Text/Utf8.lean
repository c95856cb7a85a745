import Stubsmith.Text.CodePoint

/-!
# UTF-8

`decode` reads bytes as characters or says where and why they are no UTF-8. A fault covers the longest
run of bytes that could have begun a character, so the reader knows which bytes to blame. `encode` writes
characters; a text of code points has bytes only if all of them are characters.
-/
namespace Stubsmith.Text

abbrev Bytes := List UInt8

/-- Why a run of bytes is no character. -/
inductive Utf8Reason
  | startByte
  | continuationByte
  | endOfData
  deriving DecidableEq, Repr

/-- The bytes from `start` up to `stop`, the first of them `byte`, are no character. -/
structure Utf8Fault where
  start : Nat
  stop : Nat
  byte : UInt8
  reason : Utf8Reason
  deriving DecidableEq, Repr

def Utf8Reason.message : Utf8Reason → String
  | .startByte => "invalid start byte"
  | .continuationByte => "invalid continuation byte"
  | .endOfData => "unexpected end of data"

/-- Which bytes cannot be read, and why. -/
def Utf8Fault.message (f : Utf8Fault) : String :=
  let place :=
    if f.stop = f.start + 1 then
      "byte 0x" ++ String.ofList (hexadecimal 2 f.byte.toNat) ++ " in position " ++ decimal f.start
    else "bytes in position " ++ decimal f.start ++ "-" ++ decimal (f.stop - 1)
  "'utf-8' codec can't decode " ++ place ++ ": " ++ f.reason.message

/-- How many bytes follow a leading byte, and the bounds of the first of them. Surrogates, overlong
forms and numbers above U+10FFFF are kept out by these bounds. -/
def utf8Lead (b : UInt8) : Option (Nat × UInt8 × UInt8) :=
  if b < 0xC2 then none
  else if b < 0xE0 then some (1, 0x80, 0xBF)
  else if b = 0xE0 then some (2, 0xA0, 0xBF)
  else if b = 0xED then some (2, 0x80, 0x9F)
  else if b < 0xF0 then some (2, 0x80, 0xBF)
  else if b = 0xF0 then some (3, 0x90, 0xBF)
  else if b < 0xF4 then some (3, 0x80, 0xBF)
  else if b = 0xF4 then some (3, 0x80, 0x8F)
  else none

/-- The payload of a leading byte that `n` bytes follow. -/
def utf8Payload (n : Nat) (b : UInt8) : Nat :=
  if n = 1 then b.toNat % 0x20 else if n = 2 then b.toNat % 0x10 else b.toNat % 8

/-- What is known while the bytes of one character arrive. -/
structure Utf8Partial where
  start : Nat
  lead : UInt8
  wanted : Nat
  lo : UInt8
  hi : UInt8
  value : Nat

/-- The characters of `bytes`, the first of which stands at `pos` in the whole. -/
def decodeFrom : Nat → Option Utf8Partial → Bytes → Except Utf8Fault (List Char)
  | _, none, [] => .ok []
  | pos, some p, [] => .error ⟨p.start, pos, p.lead, .endOfData⟩
  | pos, none, b :: bs =>
    if b < 0x80 then (Char.ofNat b.toNat :: ·) <$> decodeFrom (pos + 1) none bs
    else match utf8Lead b with
      | none => .error ⟨pos, pos + 1, b, .startByte⟩
      | some (n, lo, hi) => decodeFrom (pos + 1) (some ⟨pos, b, n, lo, hi, utf8Payload n b⟩) bs
  | pos, some p, b :: bs =>
    if b < p.lo || p.hi < b then .error ⟨p.start, pos, p.lead, .continuationByte⟩
    else
      let value := p.value * 64 + b.toNat % 64
      if p.wanted ≤ 1 then (Char.ofNat value :: ·) <$> decodeFrom (pos + 1) none bs
      else decodeFrom (pos + 1)
        (some { p with wanted := p.wanted - 1, lo := 0x80, hi := 0xBF, value }) bs

/-- The characters that the bytes stand for. -/
def decode (bytes : Bytes) : Except Utf8Fault (List Char) := decodeFrom 0 none bytes

/-- The bytes of a text. -/
def encode (cs : List Char) : Bytes := cs.flatMap String.utf8EncodeChar

/-- The bytes of a text of code points, if it has no halves. -/
def encodePoints? (ps : List CodePoint) : Option Bytes := (plain? ps).map fun s => encode s.toList

/-- The byte order mark. -/
def byteOrderMark : Bytes := [0xEF, 0xBB, 0xBF]

/-- As `decode`, less one leading byte order mark. The beginning of a mark with nothing after it
reads as the empty text. -/
def decodeMarked (bytes : Bytes) : Except Utf8Fault (List Char) :=
  if byteOrderMark.isPrefixOf bytes then decode (bytes.drop 3)
  else if bytes.isPrefixOf byteOrderMark then .ok []
  else decode bytes

end Stubsmith.Text
