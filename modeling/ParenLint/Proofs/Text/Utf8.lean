import Mathlib.Tactic.Lemma
import Mathlib.Tactic.SplitIfs
import ParenLint.Text.Utf8

/-!
# Decoded bytes

Bytes that are decoded without a fault are those that encode the characters: the decoder accepts no
other way to write a code point. A byte below 128 stands for the one character of its number.
-/

namespace ParenLint.Text

variable {b : UInt8} {bytes rest left : List UInt8} {cs : List Char} {code n : Nat}

/-! ### One character -/

lemma continuation_zero {bounds : UInt8 × UInt8} {r : Nat × List UInt8}
    (h : continuation 0 bounds code bytes = .ok r) : r = (code, bytes) := by
  cases bytes <;> exact (Except.ok.inj h).symm

/-- A further byte lies within its bounds and adds six bits. -/
lemma continuation_succ {bounds : UInt8 × UInt8} {r : Nat × List UInt8}
    (h : continuation (n + 1) bounds code bytes = .ok r) :
    ∃ b rest, bytes = b :: rest ∧ bounds.1.toNat ≤ b.toNat ∧ b.toNat ≤ bounds.2.toNat ∧
      continuation n (0x80, 0xBF) (code * 64 + b.toNat % 64) rest = .ok r := by
  cases bytes with
  | nil => cases h
  | cons b rest =>
    rw [continuation] at h
    split_ifs at h with hbounds
    · refine ⟨b, rest, rfl, hbounds.1, hbounds.2, ?_⟩
      cases hrest : continuation n (0x80, 0xBF) (code * 64 + b.toNat % 64) rest with
      | error e =>
        rw [hrest] at h
        cases h
      | ok r' =>
        rw [hrest] at h
        exact h

lemma toNat_ofNat (h : code.isValidChar) : (Char.ofNat code).val.toNat = code := by
  rw [Char.ofNat, dif_pos h]
  rfl

lemma ofNat_eq {n : Nat} (h : n = b.toNat) : UInt8.ofNat n = b := by
  rw [h, UInt8.ofNat_toNat]

lemma encodeChar_one (hb : b.toNat < 0x80) : String.utf8EncodeChar (Char.ofNat b.toNat) = [b] := by
  rw [String.utf8EncodeChar, toNat_ofNat (.inl (by omega)), if_pos (by omega), ofNat_eq rfl]

section

variable {c d e : UInt8} (hc : 0x80 ≤ c.toNat) (hc' : c.toNat ≤ 0xBF) (hd : 0x80 ≤ d.toNat)
  (hd' : d.toNat ≤ 0xBF) (he : 0x80 ≤ e.toNat) (he' : e.toNat ≤ 0xBF)

include hc hc'

lemma encodeChar_two (hb : 0xC2 ≤ b.toNat) (hb' : b.toNat < 0xE0) :
    String.utf8EncodeChar (Char.ofNat (b.toNat % 0x20 * 64 + c.toNat % 64)) = [b, c] := by
  rw [String.utf8EncodeChar, toNat_ofNat (.inl (by omega))]
  generalize hcode : b.toNat % 0x20 * 64 + c.toNat % 64 = code
  rw [if_neg (by omega), if_pos (by omega), ofNat_eq (b := b) (by omega),
    ofNat_eq (b := c) (by omega)]

include hd hd'

lemma encodeChar_three (hb : 0xE0 ≤ b.toNat) (hb' : b.toNat < 0xF0)
    (hshort : b.toNat = 0xE0 → 0xA0 ≤ c.toNat) (hsurrogate : b.toNat = 0xED → c.toNat ≤ 0x9F) :
    String.utf8EncodeChar
      (Char.ofNat ((b.toNat % 0x10 * 64 + c.toNat % 64) * 64 + d.toNat % 64)) = [b, c, d] := by
  generalize hcode : (b.toNat % 0x10 * 64 + c.toNat % 64) * 64 + d.toNat % 64 = code
  have hvalid : code.isValidChar := by
    by_cases hfirst : b.toNat ≤ 0xED
    · exact .inl (by omega)
    · exact .inr ⟨by omega, by omega⟩
  rw [String.utf8EncodeChar, toNat_ofNat hvalid]
  rw [if_neg (by omega), if_neg (by omega), if_pos (by omega), ofNat_eq (b := b) (by omega),
    ofNat_eq (b := c) (by omega), ofNat_eq (b := d) (by omega)]

include he he'

lemma encodeChar_four (hb : 0xF0 ≤ b.toNat) (hb' : b.toNat < 0xF5)
    (hshort : b.toNat = 0xF0 → 0x90 ≤ c.toNat) (hlong : b.toNat = 0xF4 → c.toNat ≤ 0x8F) :
    String.utf8EncodeChar (Char.ofNat
      (((b.toNat % 0x08 * 64 + c.toNat % 64) * 64 + d.toNat % 64) * 64 + e.toNat % 64)) =
      [b, c, d, e] := by
  generalize hcode :
    ((b.toNat % 0x08 * 64 + c.toNat % 64) * 64 + d.toNat % 64) * 64 + e.toNat % 64 = code
  have hvalid : code.isValidChar := .inr ⟨by omega, by omega⟩
  rw [String.utf8EncodeChar, toNat_ofNat hvalid]
  rw [if_neg (by omega), if_neg (by omega), if_neg (by omega), ofNat_eq (b := b) (by omega),
    ofNat_eq (b := c) (by omega), ofNat_eq (b := d) (by omega), ofNat_eq (b := e) (by omega)]

end

/-- What a first byte gives to the code point. -/
lemma byteCount_cases (h : byteCount b ≠ 0) :
    (b.toNat < 0x80 ∧ byteCount b = 1 ∧ firstBits b = b.toNat) ∨
      (0xC2 ≤ b.toNat ∧ b.toNat < 0xE0 ∧ byteCount b = 2 ∧ firstBits b = b.toNat % 0x20) ∨
      (0xE0 ≤ b.toNat ∧ b.toNat < 0xF0 ∧ byteCount b = 3 ∧ firstBits b = b.toNat % 0x10) ∨
      (0xF0 ≤ b.toNat ∧ b.toNat < 0xF5 ∧ byteCount b = 4 ∧ firstBits b = b.toNat % 0x08) := by
  simp only [byteCount, firstBits, UInt8.lt_iff_toNat_lt, UInt8.reduceToNat] at h ⊢
  split_ifs at h ⊢ <;> omega

/-- Which byte may follow the first one. -/
lemma bounds_of_secondByteBounds {c : UInt8} (hlo : (secondByteBounds b).1.toNat ≤ c.toNat)
    (hhi : c.toNat ≤ (secondByteBounds b).2.toNat) :
    0x80 ≤ c.toNat ∧ c.toNat ≤ 0xBF ∧ (b.toNat = 0xE0 → 0xA0 ≤ c.toNat) ∧
      (b.toNat = 0xED → c.toNat ≤ 0x9F) ∧ (b.toNat = 0xF0 → 0x90 ≤ c.toNat) ∧
      (b.toNat = 0xF4 → c.toNat ≤ 0x8F) := by
  simp only [secondByteBounds, ← UInt8.toNat_inj, UInt8.reduceToNat] at hlo hhi
  split_ifs at hlo hhi <;> simp only [UInt8.reduceToNat] at hlo hhi <;> omega

/-- A character that has been read is encoded by the bytes it was read from. -/
lemma encodeChar_append (hcount : byteCount b ≠ 0)
    (h : continuation (byteCount b - 1) (secondByteBounds b) (firstBits b) rest =
      .ok (code, left)) : String.utf8EncodeChar (Char.ofNat code) ++ left = b :: rest := by
  rcases byteCount_cases hcount with ⟨hb, hn, hbits⟩ | ⟨hb, hb', hn, hbits⟩ | ⟨hb, hb', hn, hbits⟩ |
    ⟨hb, hb', hn, hbits⟩ <;> rw [hn, hbits] at h
  · obtain ⟨rfl, rfl⟩ := Prod.mk.inj (continuation_zero h)
    rw [encodeChar_one hb]
    rfl
  · obtain ⟨c, rest, rfl, hlo, hhi, h⟩ := continuation_succ h
    obtain ⟨rfl, rfl⟩ := Prod.mk.inj (continuation_zero h)
    obtain ⟨hc, hc', -⟩ := bounds_of_secondByteBounds hlo hhi
    rw [encodeChar_two hc hc' hb hb']
    rfl
  · obtain ⟨c, rest, rfl, hlo, hhi, h⟩ := continuation_succ h
    obtain ⟨d, rest, rfl, hd, hd', h⟩ := continuation_succ h
    obtain ⟨rfl, rfl⟩ := Prod.mk.inj (continuation_zero h)
    obtain ⟨hc, hc', hshort, hsurrogate, -⟩ := bounds_of_secondByteBounds hlo hhi
    rw [encodeChar_three hc hc' hd hd' hb hb' hshort hsurrogate]
    rfl
  · obtain ⟨c, rest, rfl, hlo, hhi, h⟩ := continuation_succ h
    obtain ⟨d, rest, rfl, hd, hd', h⟩ := continuation_succ h
    obtain ⟨e, rest, rfl, he, he', h⟩ := continuation_succ h
    obtain ⟨rfl, rfl⟩ := Prod.mk.inj (continuation_zero h)
    obtain ⟨hc, hc', -, -, hshort, hlong⟩ := bounds_of_secondByteBounds hlo hhi
    rw [encodeChar_four hc hc' hd hd' he he' hb hb' hshort hlong]
    rfl

/-! ### Texts -/

lemma encode_cons (c : Char) (cs : List Char) :
    encode (c :: cs) = String.utf8EncodeChar c ++ encode cs := rfl

lemma encode_decodeFrom {fuel position : Nat} (hfuel : bytes.length ≤ fuel)
    (h : decodeFrom fuel position bytes = .ok cs) : encode cs = bytes := by
  induction fuel generalizing position bytes cs with
  | zero =>
    obtain rfl := List.eq_nil_of_length_eq_zero (Nat.le_zero.mp hfuel)
    obtain rfl := Except.ok.inj h
    rfl
  | succ fuel ih =>
    cases bytes with
    | nil =>
      obtain rfl := Except.ok.inj h
      rfl
    | cons b rest =>
      simp only [decodeFrom] at h
      split_ifs at h with hcount
      split at h
      · cases h
      · next code left hread =>
        have hbytes := encodeChar_append hcount hread
        have hshort : left.length ≤ fuel := by
          have hpos := List.length_pos_iff.mpr (String.utf8EncodeChar_ne_nil (c := Char.ofNat code))
          have hlength := congrArg List.length hbytes
          rw [List.length_append, List.length_cons] at hlength
          rw [List.length_cons] at hfuel
          omega
        cases hrest : decodeFrom fuel (position + byteCount b) left with
        | error e =>
          rw [hrest] at h
          cases h
        | ok cs' =>
          rw [hrest] at h
          obtain rfl := Except.ok.inj h
          rw [encode_cons, ih hshort hrest, hbytes]

/-- Bytes that are decoded encode the characters. -/
theorem encode_of_decode (h : decode bytes = .ok cs) : encode cs = bytes :=
  encode_decodeFrom (Nat.le_refl _) h

lemma encode_injective : Function.Injective encode := by
  intro cs ds h
  have hbytes : (String.ofList cs).toByteArray = (String.ofList ds).toByteArray :=
    congrArg List.toByteArray h
  have hstrings : String.ofList cs = String.ofList ds := String.toByteArray_inj.mp hbytes
  simpa using congrArg String.toList hstrings

/-- The bytes of a character beyond 127 are all beyond 127. -/
lemma mem_encodeChar_iff {c : Char} (hn : n < 0x80) :
    UInt8.ofNat n ∈ String.utf8EncodeChar c ↔ c.toNat = n := by
  have hcode : c.val.toNat = c.toNat := rfl
  simp only [String.utf8EncodeChar, hcode]
  split_ifs <;>
    simp only [List.mem_cons, List.not_mem_nil, or_false, ← UInt8.toNat_inj, UInt8.toNat_ofNat'] <;>
    omega

lemma count_encodeChar {c : Char} (hn : n < 0x80) :
    (String.utf8EncodeChar c).count (UInt8.ofNat n) = if c.toNat = n then 1 else 0 := by
  split_ifs with hcode
  · have hshort : String.utf8EncodeChar c = [UInt8.ofNat n] := by
      have hvalue : c.val.toNat = n := hcode
      simp [String.utf8EncodeChar, hvalue, Nat.le_of_lt_succ hn]
    rw [hshort, List.count_singleton_self]
  · exact List.count_eq_zero.mpr (mt (mem_encodeChar_iff hn).mp hcode)

/-- A byte below 128 stands in an encoded text as often as the character of its number does. -/
lemma count_encode {c : Char} (hc : c.toNat < 0x80) (cs : List Char) :
    (encode cs).count (UInt8.ofNat c.toNat) = cs.count c := by
  induction cs with
  | nil => rfl
  | cons d cs ih =>
    rw [encode_cons, List.count_append, ih, count_encodeChar hc, List.count_cons, Nat.add_comm]
    simp only [Char.toNat_inj, beq_iff_eq]

/-- A byte below 128 stands in an encoded text exactly if the character of its number does. -/
lemma mem_encode_iff {c : Char} (hc : c.toNat < 0x80) :
    UInt8.ofNat c.toNat ∈ encode cs ↔ c ∈ cs := by
  simp only [encode, List.mem_flatMap, mem_encodeChar_iff hc, Char.toNat_inj, exists_eq_right]

end ParenLint.Text
