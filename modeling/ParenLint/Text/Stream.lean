import ParenLint.Number.Binary64
import ParenLint.Text.Newline
import ParenLint.Text.Utf8

/-!
# Text from a stream of bytes

A file that is read as a stream is decoded piece by piece. The bytes of a character that is cut off
at the end of a piece are held back and go before the next piece, and the place of a fault is
counted from there. A carriage return at the end of a piece is held back too, as a newline may
follow.
-/

namespace ParenLint.Text

/-- The number of characters that a reader of a stream asks for at once. -/
def portionSize : Nat := 4096

/-- The least number of bytes in a piece, unless the stream ends. -/
def pieceSize : Nat := 8192

/-- Whether bytes are those of a surrogate without the last one. -/
def isCutSurrogate : List UInt8 → Bool
  | [first, second] => first = 0xED && 0xA0 ≤ second && second ≤ 0xBF
  | _ => false

/-- The characters of a piece and the bytes that are held back. -/
def decodePiece (bytes : List UInt8) : Except DecodeError (List Char × List UInt8) :=
  match decode bytes with
  | .ok cs => .ok (cs, [])
  | .error e =>
    let held := bytes.drop e.position
    if e.reason = .endOfData ∨ isCutSurrogate held then
      (decode (bytes.take e.position)).map fun cs => (cs, held)
    else .error e

/-- The text so far with its line ends as newlines, without a carriage return that is held back. -/
def settled (cs : List Char) : List Char :=
  unifyNewlines (if cs.getLast? = some '\r' then cs.dropLast else cs)

/-- The number of bytes in the next piece: enough for the rest of a portion, if the number of bytes
to a character stays what it was in a piece of `bytes` bytes and `chars` characters. -/
def nextPieceSize (bytes chars total : Nat) : Nat :=
  if chars = 0 then pieceSize
  else
    match (Binary64.ofRatio false bytes chars).mul (.ofNat (portionSize - total % portionSize)) with
    | .finite _ m e => max pieceSize ((Binary64.ratio m e).1 / (Binary64.ratio m e).2)
    | _ => pieceSize

/-- The text that comes after the text so far, up to the end of the stream or the piece with the
first fault. The number of pieces is bounded by the number of bytes. -/
def decodePieces (fuel size : Nat) (held bytes : List UInt8) (before : List Char) :
    List Char × Option DecodeError :=
  match fuel, bytes with
  | 0, _ => (settled before, none)
  | _, [] =>
    match decode held with
    | .ok _ => (unifyNewlines before, none)
    | .error e => (settled before, some e)
  | fuel + 1, bytes =>
    let piece := bytes.take size
    match decodePiece (held ++ piece) with
    | .error e => (settled before, some e)
    | .ok (cs, held) =>
      let total := (settled (before ++ cs)).length
      let size := nextPieceSize piece.length (total - (settled before).length) total
      decodePieces fuel size held (bytes.drop piece.length) (before ++ cs)

/-- The text that a stream of bytes encodes, with its line ends as newlines. If there is a fault,
the text ends in front of the piece that holds it. -/
def decodeStream (bytes : List UInt8) : List Char × Option DecodeError :=
  decodePieces (bytes.length + 1) pieceSize [] bytes []

end ParenLint.Text
