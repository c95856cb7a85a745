import Mathlib.Data.List.Basic
import Stubsmith.Text.Utf8

/-!
# Bytes and the texts they encode

Bytes are read as a text exactly if they are the encoding of that text. The leading byte of a character tells how many
bytes follow and within which bounds the first of them lies; the bounds leave no second way to write a character, and
none to write what is no character. A text with half a character in it is not encoded.
-/
namespace Stubsmith.Text

variable {b : UInt8} {ks bytes : Bytes} {c : Char} {cs : List Char} {n lo hi value v pos : Nat}

/-- The leading bytes, by the number of bytes that follow and the bounds of the first of them. -/
inductive Leads (b : UInt8) : (n lo hi : Nat) → Prop
  | two (h : 0xC2 ≤ b.toNat) (h' : b.toNat < 0xE0) : Leads b 1 0x80 0xBF
  | firstOfThree (h : b.toNat = 0xE0) : Leads b 2 0xA0 0xBF
  | three (h : 0xE0 < b.toNat) (h' : b.toNat < 0xF0) (hne : b.toNat ≠ 0xED) : Leads b 2 0x80 0xBF
  | belowHalves (h : b.toNat = 0xED) : Leads b 2 0x80 0x9F
  | firstOfFour (h : b.toNat = 0xF0) : Leads b 3 0x90 0xBF
  | four (h : 0xF0 < b.toNat) (h' : b.toNat < 0xF4) : Leads b 3 0x80 0xBF
  | lastOfFour (h : b.toNat = 0xF4) : Leads b 3 0x80 0x8F

/-- The bytes that complete a number of which `value` is known: so many are wanted, and the first of them lies within
the bounds. -/
def Completes : (wanted : Nat) → (lo hi value : Nat) → Bytes → Nat → Prop
  | 0, _, _, value, ks, v => ks = [] ∧ v = value
  | n + 1, lo, hi, value, ks, v => ∃ x rest, ks = x :: rest ∧ lo ≤ x.toNat ∧ x.toNat ≤ hi ∧
      Completes n 0x80 0xBF (value * 64 + x.toNat % 64) rest v

lemma leads_of_utf8Lead {l u : UInt8} (h : utf8Lead b = some (n, l, u)) : Leads b n l.toNat u.toNat := by
  unfold utf8Lead at h
  simp only [UInt8.lt_iff_toNat_lt, ← UInt8.toNat_inj, UInt8.reduceToNat] at h
  repeat' split at h
  all_goals cases h
  · exact .two (by omega) (by omega)
  · exact .firstOfThree (by omega)
  · exact .belowHalves (by omega)
  · exact .three (by omega) (by omega) (by omega)
  · exact .firstOfFour (by omega)
  · exact .four (by omega) (by omega)
  · exact .lastOfFour (by omega)

lemma Leads.utf8Lead_eq (h : Leads b n lo hi) : utf8Lead b = some (n, UInt8.ofNat lo, UInt8.ofNat hi) := by
  unfold utf8Lead
  simp only [UInt8.lt_iff_toNat_lt, ← UInt8.toNat_inj, UInt8.reduceToNat]
  cases h with
  | two h h' => rw [if_neg (by omega), if_pos h']; rfl
  | firstOfThree h => rw [h]; rfl
  | belowHalves h => rw [h]; rfl
  | three h h' hne => rw [if_neg (by omega), if_neg (by omega), if_neg (by omega), if_neg hne, if_pos h']; rfl
  | firstOfFour h => rw [h]; rfl
  | four h h' =>
    rw [if_neg (by omega), if_neg (by omega), if_neg (by omega), if_neg (by omega), if_neg (by omega),
      if_neg (by omega), if_pos h']; rfl
  | lastOfFour h => rw [h]; rfl

lemma Leads.wanted (h : Leads b n lo hi) : n ≠ 0 := by
  cases h <;> decide

lemma Leads.not_small (h : Leads b n lo hi) : ¬ b < 0x80 := by
  simp only [UInt8.lt_iff_toNat_lt, UInt8.reduceToNat]
  cases h <;> omega

lemma Leads.toNat_bounds (h : Leads b n lo hi) : (UInt8.ofNat lo).toNat = lo ∧ (UInt8.ofNat hi).toNat = hi := by
  cases h <;> exact ⟨rfl, rfl⟩

lemma ofNat_eq {x : UInt8} (h : n = x.toNat) : UInt8.ofNat n = x := by
  rw [h, UInt8.ofNat_toNat]

lemma toNat_ofNat (h : n < 256) : (UInt8.ofNat n).toNat = n := UInt8.toNat_ofNat_of_lt' h

lemma toNat_tail (n : Nat) : (UInt8.ofNat (n % 64 + 128)).toNat = n % 64 + 128 :=
  toNat_ofNat (by omega)

/-- The number of a character. -/
lemma isScalar (c : Char) : c.toNat < 0xD800 ∨ 0xDFFF < c.toNat ∧ c.toNat < 0x110000 := by
  simpa [UInt32.isValidChar, Nat.isValidChar] using c.valid

/-- The leading byte of three leaves out the short numbers and the halves of characters. -/
lemma exists_leads_three (hb : b.toNat = v / 4096 + 224) (hlow : 0x800 ≤ v) (hhigh : v ≤ 0xFFFF)
    (hscalar : v < 0xD800 ∨ 0xDFFF < v) :
    ∃ lo hi, Leads b 2 lo hi ∧ lo ≤ v / 64 % 64 + 128 ∧ v / 64 % 64 + 128 ≤ hi := by
  by_cases hfirst : v / 4096 = 0
  · exact ⟨_, _, .firstOfThree (by omega), by omega, by omega⟩
  by_cases hhalves : v / 4096 = 13
  · exact ⟨_, _, .belowHalves (by omega), by omega, by omega⟩
  · exact ⟨_, _, .three (by omega) (by omega) (by omega), by omega, by omega⟩

/-- The leading byte of four leaves out the short numbers and those above the last character. -/
lemma exists_leads_four (hb : b.toNat = v / 262144 + 240) (hlow : 0x10000 ≤ v) (hhigh : v < 0x110000) :
    ∃ lo hi, Leads b 3 lo hi ∧ lo ≤ v / 4096 % 64 + 128 ∧ v / 4096 % 64 + 128 ≤ hi := by
  by_cases hfirst : v / 262144 = 0
  · exact ⟨_, _, .firstOfFour (by omega), by omega, by omega⟩
  by_cases hlast : v / 262144 = 4
  · exact ⟨_, _, .lastOfFour (by omega), by omega, by omega⟩
  · exact ⟨_, _, .four (by omega) (by omega), by omega, by omega⟩

/-- A character is written as one small byte, or as a leading byte and those that complete its number. -/
lemma encodeChar_eq_cons (h : String.utf8EncodeChar c = b :: ks) : b.toNat < 0x80 ∧ c.toNat = b.toNat ∧ ks = [] ∨
    ∃ n lo hi, Leads b n lo hi ∧ Completes n lo hi (utf8Payload n b) ks c.toNat := by
  have hscalar := isScalar c
  simp only [String.utf8EncodeChar, show c.val.toNat = c.toNat from rfl] at h
  generalize c.toNat = v at h hscalar
  split_ifs at h with hone htwo hthree <;> cases h
  · have hb : (UInt8.ofNat v).toNat = v := toNat_ofNat (by omega)
    exact Or.inl ⟨by omega, hb.symm, rfl⟩
  · have hb : (UInt8.ofNat (v / 64 % 32 + 192)).toNat = v / 64 + 192 := by rw [toNat_ofNat] <;> omega
    have hx := toNat_tail v
    refine Or.inr ⟨1, _, _, .two (by omega) (by omega), _, _, rfl, by omega, by omega, rfl, ?_⟩
    rw [utf8Payload, if_pos rfl, hb, hx]
    omega
  · have hb : (UInt8.ofNat (v / 4096 % 16 + 224)).toNat = v / 4096 + 224 := by rw [toNat_ofNat] <;> omega
    have hx := toNat_tail (v / 64)
    have hy := toNat_tail v
    obtain ⟨lo, hi, hlead, hlo, hhi⟩ := exists_leads_three hb (by omega) hthree (by omega)
    refine Or.inr ⟨2, lo, hi, hlead, _, _, rfl, by omega, by omega, _, _, rfl, by omega, by omega, rfl, ?_⟩
    rw [utf8Payload, if_neg (by decide), if_pos rfl, hb, hx, hy]
    omega
  · have hb : (UInt8.ofNat (v / 262144 % 8 + 240)).toNat = v / 262144 + 240 := by rw [toNat_ofNat] <;> omega
    have hx := toNat_tail (v / 4096)
    have hy := toNat_tail (v / 64)
    have hz := toNat_tail v
    obtain ⟨lo, hi, hlead, hlo, hhi⟩ := exists_leads_four hb (by omega) (by omega)
    refine Or.inr ⟨3, lo, hi, hlead, _, _, rfl, by omega, by omega, _, _, rfl, by omega, by omega, _, _, rfl, by omega,
      by omega, rfl, ?_⟩
    rw [utf8Payload, if_neg (by decide), if_neg (by decide), hb, hx, hy, hz]
    omega

/-- Every number outside the halves of characters, up to the last one, is that of a character. -/
lemma toNat_charOfNat (h : v < 0xD800 ∨ 0xDFFF < v ∧ v < 0x110000) : (Char.ofNat v).toNat = v := by
  have hvalid : v.isValidChar := h
  rw [Char.ofNat, dif_pos hvalid]
  rfl

lemma encodeChar_one (hb : b.toNat < 0x80) (hc : c.toNat = b.toNat) : String.utf8EncodeChar c = [b] := by
  simp only [String.utf8EncodeChar, show c.val.toNat = b.toNat from hc]
  rw [if_pos (by omega), ofNat_eq rfl]

lemma encodeChar_two {x : UInt8} (hb : 0xC2 ≤ b.toNat) (hb' : b.toNat < 0xE0) (hx : 0x80 ≤ x.toNat)
    (hx' : x.toNat ≤ 0xBF) (hv : v = b.toNat % 0x20 * 64 + x.toNat % 64) (hc : c.toNat = v) :
    String.utf8EncodeChar c = [b, x] := by
  simp only [String.utf8EncodeChar, show c.val.toNat = v from hc]
  rw [if_neg (by omega), if_pos (by omega), ofNat_eq (x := b) (by omega), ofNat_eq (x := x) (by omega)]

lemma encodeChar_three {x y : UInt8} (hb : 0xE0 ≤ b.toNat) (hb' : b.toNat < 0xF0) (hx : 0x80 ≤ x.toNat)
    (hx' : x.toNat ≤ 0xBF) (hy : 0x80 ≤ y.toNat) (hy' : y.toNat ≤ 0xBF)
    (hv : v = (b.toNat % 0x10 * 64 + x.toNat % 64) * 64 + y.toNat % 64) (hlow : 0x800 ≤ v) (hc : c.toNat = v) :
    String.utf8EncodeChar c = [b, x, y] := by
  simp only [String.utf8EncodeChar, show c.val.toNat = v from hc]
  rw [if_neg (by omega), if_neg (by omega), if_pos (by omega), ofNat_eq (x := b) (by omega),
    ofNat_eq (x := x) (by omega), ofNat_eq (x := y) (by omega)]

lemma encodeChar_four {x y z : UInt8} (hb : 0xF0 ≤ b.toNat) (hb' : b.toNat < 0xF8) (hx : 0x80 ≤ x.toNat)
    (hx' : x.toNat ≤ 0xBF) (hy : 0x80 ≤ y.toNat) (hy' : y.toNat ≤ 0xBF) (hz : 0x80 ≤ z.toNat) (hz' : z.toNat ≤ 0xBF)
    (hv : v = ((b.toNat % 8 * 64 + x.toNat % 64) * 64 + y.toNat % 64) * 64 + z.toNat % 64) (hlow : 0x10000 ≤ v)
    (hc : c.toNat = v) : String.utf8EncodeChar c = [b, x, y, z] := by
  simp only [String.utf8EncodeChar, show c.val.toNat = v from hc]
  rw [if_neg (by omega), if_neg (by omega), if_neg (by omega), ofNat_eq (x := b) (by omega),
    ofNat_eq (x := x) (by omega), ofNat_eq (x := y) (by omega), ofNat_eq (x := z) (by omega)]

/-- A leading byte and the bytes that complete it are the encoding of the character with their number. -/
lemma Leads.encodeChar (h : Leads b n lo hi) (hks : Completes n lo hi (utf8Payload n b) ks v) :
    (Char.ofNat v).toNat = v ∧ String.utf8EncodeChar (Char.ofNat v) = b :: ks := by
  -- The bounds of the leading byte keep the number within those that are written with so many bytes.
  cases h with
  | two hb hb' =>
    obtain ⟨x, -, rfl, hx, hx', rfl, hv⟩ := hks
    change v = b.toNat % 0x20 * 64 + x.toNat % 64 at hv
    have hc := toNat_charOfNat (v := v) (by omega)
    exact ⟨hc, encodeChar_two hb hb' hx hx' hv hc⟩
  | firstOfThree hb =>
    obtain ⟨x, -, rfl, hx, hx', y, -, rfl, hy, hy', rfl, hv⟩ := hks
    change v = (b.toNat % 0x10 * 64 + x.toNat % 64) * 64 + y.toNat % 64 at hv
    have hc := toNat_charOfNat (v := v) (by omega)
    exact ⟨hc, encodeChar_three (by omega) (by omega) (by omega) hx' hy hy' hv (by omega) hc⟩
  | three hb hb' hne =>
    obtain ⟨x, -, rfl, hx, hx', y, -, rfl, hy, hy', rfl, hv⟩ := hks
    change v = (b.toNat % 0x10 * 64 + x.toNat % 64) * 64 + y.toNat % 64 at hv
    have hc := toNat_charOfNat (v := v) (by omega)
    exact ⟨hc, encodeChar_three (by omega) hb' hx hx' hy hy' hv (by omega) hc⟩
  | belowHalves hb =>
    obtain ⟨x, -, rfl, hx, hx', y, -, rfl, hy, hy', rfl, hv⟩ := hks
    change v = (b.toNat % 0x10 * 64 + x.toNat % 64) * 64 + y.toNat % 64 at hv
    have hc := toNat_charOfNat (v := v) (by omega)
    exact ⟨hc, encodeChar_three (by omega) (by omega) hx (by omega) hy hy' hv (by omega) hc⟩
  | firstOfFour hb =>
    obtain ⟨x, -, rfl, hx, hx', y, -, rfl, hy, hy', z, -, rfl, hz, hz', rfl, hv⟩ := hks
    change v = ((b.toNat % 8 * 64 + x.toNat % 64) * 64 + y.toNat % 64) * 64 + z.toNat % 64 at hv
    have hc := toNat_charOfNat (v := v) (by omega)
    exact ⟨hc, encodeChar_four (by omega) (by omega) (by omega) hx' hy hy' hz hz' hv (by omega) hc⟩
  | four hb hb' =>
    obtain ⟨x, -, rfl, hx, hx', y, -, rfl, hy, hy', z, -, rfl, hz, hz', rfl, hv⟩ := hks
    change v = ((b.toNat % 8 * 64 + x.toNat % 64) * 64 + y.toNat % 64) * 64 + z.toNat % 64 at hv
    have hc := toNat_charOfNat (v := v) (by omega)
    exact ⟨hc, encodeChar_four (by omega) (by omega) hx hx' hy hy' hz hz' hv (by omega) hc⟩
  | lastOfFour hb =>
    obtain ⟨x, -, rfl, hx, hx', y, -, rfl, hy, hy', z, -, rfl, hz, hz', rfl, hv⟩ := hks
    change v = ((b.toNat % 8 * 64 + x.toNat % 64) * 64 + y.toNat % 64) * 64 + z.toNat % 64 at hv
    have hc := toNat_charOfNat (v := v) (by omega)
    exact ⟨hc, encodeChar_four (by omega) (by omega) hx (by omega) hy hy' hz hz' hv (by omega) hc⟩

lemma cons_map_eq_ok {r : Except Utf8Fault (List Char)} :
    (c :: ·) <$> r = .ok cs ↔ ∃ ds, cs = c :: ds ∧ r = .ok ds := by
  cases r with
  | error e => simp [Functor.map, Except.map]
  | ok ds => simp [Functor.map, Except.map, eq_comm]

/-- In the middle of a character the reader takes the bytes that complete it, and goes on. -/
lemma decodeFrom_some {p : Utf8Partial} (hwanted : p.wanted ≠ 0) : decodeFrom pos (some p) bytes = .ok cs ↔
    ∃ ks v rest ds, bytes = ks ++ rest ∧ Completes p.wanted p.lo.toNat p.hi.toNat p.value ks v ∧
      cs = Char.ofNat v :: ds ∧ decodeFrom (pos + ks.length) none rest = .ok ds := by
  obtain ⟨n, hn⟩ := Nat.exists_eq_succ_of_ne_zero hwanted
  induction bytes generalizing pos p n with
  | nil => simp [decodeFrom, hn, Completes]
  | cons x bytes ih =>
    rw [decodeFrom, hn]
    by_cases hbound : p.lo.toNat ≤ x.toNat ∧ x.toNat ≤ p.hi.toNat
    · rw [if_neg (by simp [UInt8.lt_iff_toNat_lt, hbound])]
      dsimp only
      cases n with
      | zero =>
        rw [if_pos (by decide), cons_map_eq_ok]
        constructor
        · rintro ⟨ds, rfl, hds⟩
          exact ⟨[x], _, bytes, ds, rfl, ⟨x, [], rfl, hbound.1, hbound.2, rfl, rfl⟩, rfl, hds⟩
        · rintro ⟨ks, v, rest, ds, hsplit, ⟨y, -, rfl, -, -, rfl, rfl⟩, rfl, hds⟩
          obtain ⟨rfl, rfl⟩ := List.cons.inj hsplit
          exact ⟨ds, rfl, hds⟩
      | succ n =>
        rw [if_neg (by omega), ih (by simp) n rfl]
        constructor
        · rintro ⟨ks, v, rest, ds, rfl, hks, rfl, hds⟩
          refine ⟨x :: ks, v, rest, ds, rfl, ⟨x, ks, rfl, hbound.1, hbound.2, hks⟩, rfl, ?_⟩
          rwa [List.length_cons, Nat.add_comm ks.length, ← Nat.add_assoc]
        · rintro ⟨ks, v, rest, ds, hsplit, ⟨y, ks', rfl, -, -, hks⟩, rfl, hds⟩
          obtain ⟨rfl, rfl⟩ := List.cons.inj hsplit
          refine ⟨ks', v, rest, ds, rfl, hks, rfl, ?_⟩
          rwa [List.length_cons, Nat.add_comm ks'.length, ← Nat.add_assoc] at hds
    · have hout : (x < p.lo || p.hi < x) = true := by
        rw [Bool.or_eq_true, decide_eq_true_iff, decide_eq_true_iff, UInt8.lt_iff_toNat_lt, UInt8.lt_iff_toNat_lt]
        omega
      rw [if_pos hout]
      simp only [reduceCtorEq, false_iff]
      rintro ⟨ks, v, rest, ds, hsplit, ⟨y, ks', rfl, hlo, hhi, -⟩, -, -⟩
      obtain ⟨rfl, -⟩ := List.cons.inj hsplit
      exact hbound ⟨hlo, hhi⟩

/-- Between characters the reader takes the bytes of one character, and goes on. -/
lemma decodeFrom_none : decodeFrom pos none (b :: bytes) = .ok cs ↔
    ∃ c rest ds, b :: bytes = String.utf8EncodeChar c ++ rest ∧ cs = c :: ds ∧
      decodeFrom (pos + (String.utf8EncodeChar c).length) none rest = .ok ds := by
  rw [decodeFrom]
  constructor
  · intro h
    split_ifs at h with hsmall
    · obtain ⟨ds, rfl, hds⟩ := cons_map_eq_ok.mp h
      have hb : b.toNat < 0x80 := UInt8.lt_iff_toNat_lt.mp hsmall
      have hone : String.utf8EncodeChar (Char.ofNat b.toNat) = [b] := encodeChar_one hb (toNat_charOfNat (by omega))
      exact ⟨_, bytes, ds, by rw [hone]; rfl, rfl, by rwa [hone]⟩
    · split at h
      · cases h
      · next n lo hi hlead =>
        have hleads := leads_of_utf8Lead hlead
        obtain ⟨ks, v, rest, ds, rfl, hks, rfl, hds⟩ := (decodeFrom_some hleads.wanted).mp h
        obtain ⟨-, hchar⟩ := hleads.encodeChar hks
        refine ⟨_, rest, ds, by rw [hchar]; rfl, rfl, ?_⟩
        rwa [hchar, List.length_cons, Nat.add_comm ks.length, ← Nat.add_assoc]
  · rintro ⟨c, rest, ds, hsplit, rfl, hds⟩
    obtain ⟨x, ks, hchar⟩ : ∃ x ks, String.utf8EncodeChar c = x :: ks :=
      List.exists_cons_of_ne_nil String.utf8EncodeChar_ne_nil
    rw [hchar] at hsplit hds
    obtain ⟨rfl, rfl⟩ := List.cons.inj hsplit
    rcases encodeChar_eq_cons hchar with ⟨hsmall, hc, rfl⟩ | ⟨n, lo, hi, hleads, hks⟩
    · rw [if_pos (UInt8.lt_iff_toNat_lt.mpr hsmall), ← hc, Char.ofNat_toNat]
      exact cons_map_eq_ok.mpr ⟨ds, rfl, hds⟩
    · rw [if_neg hleads.not_small, hleads.utf8Lead_eq]
      refine (decodeFrom_some hleads.wanted).mpr ⟨ks, c.toNat, rest, ds, rfl, ?_, by rw [Char.ofNat_toNat], ?_⟩
      · rwa [hleads.toNat_bounds.1, hleads.toNat_bounds.2]
      · rwa [List.length_cons, Nat.add_comm ks.length, ← Nat.add_assoc] at hds

lemma encode_cons (c : Char) (cs : List Char) : encode (c :: cs) = String.utf8EncodeChar c ++ encode cs := rfl

lemma encode_append (cs ds : List Char) : encode (cs ++ ds) = encode cs ++ encode ds := List.flatMap_append

lemma encode_eq_nil : encode cs = [] ↔ cs = [] := by
  cases cs with
  | nil => simp [encode]
  | cons c cs => simp [encode_cons, String.utf8EncodeChar_ne_nil]

lemma decodeFrom_eq_ok : decodeFrom pos none bytes = .ok cs ↔ bytes = encode cs := by
  -- The induction is on the number of bytes that are left, of which each character takes at least one.
  induction hlength : bytes.length using Nat.strongRecOn generalizing bytes pos cs with
  | ind length ih =>
    cases bytes with
    | nil =>
      rw [eq_comm (a := []), encode_eq_nil, decodeFrom]
      simp [eq_comm]
    | cons b bytes =>
      have hshorter : ∀ c rest, b :: bytes = String.utf8EncodeChar c ++ rest → rest.length < length := by
        intro c rest hsplit
        have hpos := List.length_pos_of_ne_nil (String.utf8EncodeChar_ne_nil (c := c))
        have hsum := congrArg List.length hsplit
        rw [List.length_append] at hsum
        omega
      rw [decodeFrom_none]
      constructor
      · rintro ⟨c, rest, ds, hsplit, rfl, hds⟩
        rw [hsplit, encode_cons, (ih _ (hshorter c rest hsplit) rfl).mp hds]
      · intro hbytes
        cases cs with
        | nil => cases hbytes
        | cons c ds =>
          rw [encode_cons] at hbytes
          exact ⟨c, encode ds, ds, hbytes, rfl, (ih _ (hshorter c _ hbytes) rfl).mpr rfl⟩

/-- Bytes are read as a text exactly if they are its encoding. -/
theorem decode_eq_ok : decode bytes = .ok cs ↔ bytes = encode cs := decodeFrom_eq_ok

/-- Bytes that cannot be read encode no text. -/
theorem decode_eq_error : (∃ e, decode bytes = .error e) ↔ ∀ cs, bytes ≠ encode cs := by
  simp only [ne_eq, ← decode_eq_ok]
  cases decode bytes with
  | error e => simp
  | ok cs => simp

lemma encode_inj {ds : List Char} : encode cs = encode ds ↔ cs = ds := by
  rw [← decode_eq_ok, decode_eq_ok.mpr rfl, Except.ok.injEq]

lemma hasHalf_iff {ps : List CodePoint} : hasHalf ps = true ↔ ∃ n, .half n ∈ ps := by
  rw [hasHalf, List.any_eq_true]
  constructor
  · rintro ⟨p, hp, hhalf⟩
    cases p with
    | char c => cases hhalf
    | half n => exact ⟨n, hp⟩
  · rintro ⟨n, hn⟩
    exact ⟨_, hn, rfl⟩

lemma hasHalf_append (ps qs : List CodePoint) : hasHalf (ps ++ qs) = (hasHalf ps || hasHalf qs) := List.any_append

/-- A text of code points is encoded as one of characters, if it has no halves. -/
lemma encodePoints?_eq_some {ps : List CodePoint} {bytes : Bytes} :
    encodePoints? ps = some bytes ↔ hasHalf ps = false ∧ bytes = encode (chars ps) := by
  unfold encodePoints? plain?
  cases hasHalf ps <;> simp [charText, eq_comm]

lemma encodePoints?_append {ps qs : List CodePoint} {bytes' : Bytes} (h : encodePoints? ps = some bytes)
    (h' : encodePoints? qs = some bytes') : encodePoints? (ps ++ qs) = some (bytes ++ bytes') := by
  obtain ⟨hps, rfl⟩ := encodePoints?_eq_some.mp h
  obtain ⟨hqs, rfl⟩ := encodePoints?_eq_some.mp h'
  refine encodePoints?_eq_some.mpr ⟨by rw [hasHalf_append, hps, hqs]; rfl, ?_⟩
  rw [chars_append, encode_append]

end Stubsmith.Text
