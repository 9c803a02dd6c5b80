import ParenLint.Text.Quoted
import ParenLint.Text.Utf8

/-!
# Bytes in texts

Bytes are written in a text as letters, digits and two signs, of which four stand for three bytes.
Messages show bytes as quoted text behind a letter.
-/

namespace ParenLint.Text

/-- The six bits that a character stands for. -/
def sixBits? (c : Char) : Option Nat :=
  if 'A' ≤ c ∧ c ≤ 'Z' then some (c.toNat - 65)
  else if 'a' ≤ c ∧ c ≤ 'z' then some (c.toNat - 71)
  else if '0' ≤ c ∧ c ≤ '9' then some (c.toNat + 4)
  else if c = '+' then some 62
  else if c = '/' then some 63
  else none

/-- The bytes that a text writes from within a group of four characters. So many characters of the
group have been read, the last of which stands for `last`, and `pads` equals signs since then. They
end the text when they fill the group. Other characters mean nothing. -/
def bytesFrom (place last pads : Nat) : List Char → Option (List UInt8)
  | [] => if place = 0 then some [] else none
  | c :: rest =>
    if c = '=' then
      if place < 2 then bytesFrom place last pads rest
      else if 4 ≤ place + pads + 1 then some []
      else bytesFrom place last (pads + 1) rest
    else
      match sixBits? c with
      | none => bytesFrom place last pads rest
      | some n =>
        let more := bytesFrom ((place + 1) % 4) n 0 rest
        if place = 0 then more
        else if place = 1 then more.map (UInt8.ofNat (last * 4 + n / 16) :: ·)
        else if place = 2 then more.map (UInt8.ofNat (last % 16 * 16 + n / 4) :: ·)
        else more.map (UInt8.ofNat (last % 4 * 64 + n) :: ·)

/-- The bytes that an ASCII text writes, if its last group is complete. -/
def bytesOfText? (cs : List Char) : Option (List UInt8) :=
  if cs.all fun c => c.toNat < 0x80 then bytesFrom 0 0 0 cs else none

/-- How a byte is shown between the given quotes. -/
def showByte (quote : Char) (b : UInt8) : List Char :=
  if b < 0x80 then showChar quote (Char.ofNat b.toNat) else '\\' :: 'x' :: hexPadded 2 b.toNat

/-- Bytes as messages show them. -/
def quotedBytes (bs : List UInt8) : String :=
  let quote := quoteFor (bs.map fun b => Char.ofNat b.toNat)
  String.ofList ('b' :: quote :: bs.flatMap (showByte quote) ++ [quote])

example : bytesOfText? ['T', 'W', 'F', 'u'] = some [77, 97, 110] := by decide +kernel

end ParenLint.Text
