/-!
# UTF-8

Decoding of bytes, with the place and the reason of the first fault, and encoding of characters.
-/

namespace ParenLint.Text

/-- Why bytes are not UTF-8. -/
inductive DecodeReason
  /-- A byte that no character begins with. -/
  | startByte
  /-- A byte that cannot go on with the character begun. -/
  | continuationByte
  /-- The bytes end within a character. -/
  | endOfData
  deriving DecidableEq, Repr

/-- The first fault in a sequence of bytes. -/
structure DecodeError where
  /-- The bytes of the character that is at fault. -/
  bytes : List UInt8
  /-- The number of bytes before them. -/
  position : Nat
  reason : DecodeReason
  deriving DecidableEq, Repr

/-- The words for a reason. -/
def DecodeReason.words : DecodeReason → String
  | startByte => "invalid start byte"
  | continuationByte => "invalid continuation byte"
  | endOfData => "unexpected end of data"

/-- Two hexadecimal digits. -/
def hexByte (b : UInt8) : String :=
  String.ofList [Nat.digitChar (b.toNat / 16), Nat.digitChar (b.toNat % 16)]

/-- The message of a fault. A single byte is shown; several are given by their positions. -/
def DecodeError.message (e : DecodeError) : String :=
  let place := match e.bytes with
    | [b] => s!"byte 0x{hexByte b} in position {e.position}"
    | bs => s!"bytes in position {e.position}-{e.position + bs.length - 1}"
  s!"'utf-8' codec can't decode {place}: {e.reason.words}"

/-- The bounds of the second byte of a character that has more than two bytes or exactly two: they
rule out characters written too long, surrogates and numbers beyond the last code point. -/
def secondByteBounds (first : UInt8) : UInt8 × UInt8 :=
  if first = 0xE0 then (0xA0, 0xBF)
  else if first = 0xED then (0x80, 0x9F)
  else if first = 0xF0 then (0x90, 0xBF)
  else if first = 0xF4 then (0x80, 0x8F)
  else (0x80, 0xBF)

/-- The number of bytes of a character that begins with the given byte, or zero if none does. -/
def byteCount (first : UInt8) : Nat :=
  if first < 0x80 then 1
  else if first < 0xC2 then 0
  else if first < 0xE0 then 2
  else if first < 0xF0 then 3
  else if first < 0xF5 then 4
  else 0

/-- The bits that a first byte gives to the code point. -/
def firstBits (first : UInt8) : Nat :=
  if first < 0x80 then first.toNat
  else if first < 0xE0 then first.toNat % 0x20
  else if first < 0xF0 then first.toNat % 0x10
  else first.toNat % 0x08

/-- Read `n` more bytes of a character. The first of them lies within `bounds` and the others are
any continuation bytes. On a fault, the bytes read before it are returned. -/
def continuation (n : Nat) (bounds : UInt8 × UInt8) (code : Nat) (bytes : List UInt8) :
    Except (List UInt8 × DecodeReason) (Nat × List UInt8) :=
  match n, bytes with
  | 0, rest => .ok (code, rest)
  | _ + 1, [] => .error ([], .endOfData)
  | n + 1, b :: rest =>
    if bounds.1 ≤ b ∧ b ≤ bounds.2 then
      (continuation n (0x80, 0xBF) (code * 64 + b.toNat % 64) rest).mapError
        fun (before, reason) => (b :: before, reason)
    else .error ([], .continuationByte)

/-- Decode bytes of which `position` have been decoded before. The number of steps is bounded by
the number of bytes. -/
def decodeFrom (fuel position : Nat) (bytes : List UInt8) : Except DecodeError (List Char) :=
  match fuel, bytes with
  | _, [] | 0, _ => .ok []
  | fuel + 1, b :: rest =>
    let n := byteCount b
    if n = 0 then .error ⟨[b], position, .startByte⟩
    else
      match continuation (n - 1) (secondByteBounds b) (firstBits b) rest with
      | .error (before, reason) => .error ⟨b :: before, position, reason⟩
      | .ok (code, left) => (decodeFrom fuel (position + n) left).map (Char.ofNat code :: ·)

/-- The characters that bytes encode. -/
def decode (bytes : List UInt8) : Except DecodeError (List Char) :=
  decodeFrom bytes.length 0 bytes

/-- The bytes that encode characters. -/
def encode (cs : List Char) : List UInt8 := cs.flatMap String.utf8EncodeChar

end ParenLint.Text
