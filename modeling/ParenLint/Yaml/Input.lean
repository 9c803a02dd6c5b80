import ParenLint.Text.Stream
import ParenLint.Yaml.Fault

/-!
# Texts that arrive in portions

A document is read portion by portion. What is wrong with a portion shows only when the portion is
asked for, so that a fault of the document in front of it comes first.
-/

namespace ParenLint.Yaml

open ParenLint.Text

/-- Whether `c` may stand in a document. -/
def isDocumentChar (c : Char) : Bool :=
  c = '\t' || c = '\n' || c = '\r' || (' ' ≤ c && c ≤ '~') || c = '\x85'
    || (0xA0 ≤ c.toNat && c.toNat ≤ 0xD7FF) || (0xE000 ≤ c.toNat && c.toNat ≤ 0xFFFD)
    || 0x10000 ≤ c.toNat

/-- A text up to the first portion with a fault. -/
structure Input where
  text : List Char
  /-- The fault that shows where the text ends, unless it ends there for good. -/
  cut : Option Fault
  deriving Repr

/-- The number of characters in front of the portion that holds a place. The first portion is twice
as long as the others. -/
def portionStart (place : Nat) : Nat :=
  if place < 2 * portionSize then 0 else place - place % portionSize

/-- The text that bytes encode. -/
def Input.ofBytes (bytes : List UInt8) : Input :=
  let (decoded, fault) := decodeStream bytes
  let text := if fault.isSome then decoded.take (portionStart decoded.length) else decoded
  let sound := text.takeWhile isDocumentChar
  if sound.length < text.length then ⟨sound.take (portionStart sound.length), some .malformed⟩
  else ⟨text, fault.map .undecodable⟩

end ParenLint.Yaml
