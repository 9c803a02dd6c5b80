import ParenLint.Text.Utf8
import ParenLint.Yaml.Input
import ParenLint.Yaml.Scalar
import ParenLint.Yaml.Token

/-!
# The tokens of a YAML text

A text is cut into tokens from left to right. The indentation of the lines opens and closes the
collections in block style. A key on one line is recognised as a key only when its colon is found:
until then its place among the tokens is remembered, and the tokens that make it a key are put in
there afterwards.
-/

namespace ParenLint.Yaml

open Cursor

/-- A place where a key may have begun. -/
structure KeyCandidate where
  /-- The number of tokens before it. -/
  place : Nat
  /-- Whether nothing but a key may stand there. -/
  required : Bool
  index : Nat
  line : Nat
  column : Nat
  deriving Repr

/-- How far the cutting has come. -/
structure TokenStream where
  cursor : Cursor
  /-- The tokens found, last to first. -/
  found : List Token
  /-- The number of tokens found. -/
  count : Nat
  /-- The number of flow collections that are open. -/
  flowLevel : Nat
  /-- The column of the innermost block collection, or -1. -/
  indent : Int
  /-- The columns of the block collections around it. -/
  outer : List Int
  /-- Whether a key may begin here. -/
  keyAllowed : Bool
  /-- The places where a key may have begun, one at most for each level of flow collections. -/
  candidates : List (Nat × KeyCandidate)
  deriving Repr

namespace TokenStream

/-- The beginning of a text. -/
def start (cs : List Char) : TokenStream := ⟨Cursor.start cs, [], 0, 0, -1, [], true, []⟩

/-- Whether a flow collection is open. -/
def inFlow (s : TokenStream) : Bool := s.flowLevel ≠ 0

/-- The tokens found. -/
def tokens (s : TokenStream) : List Token := s.found.reverse

/-- The stream with a further token. -/
def push (s : TokenStream) (t : Token) : TokenStream :=
  { s with found := t :: s.found, count := s.count + 1 }

/-- The stream with a token put in behind the first `place` tokens. -/
def put (s : TokenStream) (place : Nat) (t : Token) : TokenStream :=
  let behind := s.count - place
  { s with found := s.found.take behind ++ t :: s.found.drop behind, count := s.count + 1 }

/-- The stream with the cursor moved on and a further token. -/
def take (s : TokenStream) (n : Nat) (t : Token) : TokenStream :=
  { s with cursor := s.cursor.advance n }.push t

/-! ### Places of keys -/

/-- Drop the places that lie on an earlier line or more than 1024 characters behind. -/
def dropStale (s : TokenStream) : Except Fault TokenStream :=
  let stale (k : KeyCandidate) : Bool :=
    k.line ≠ s.cursor.line || 1024 < s.cursor.index - k.index
  if s.candidates.any fun k => stale k.2 && k.2.required then .error .malformed
  else .ok { s with candidates := s.candidates.filter fun k => !stale k.2 }

/-- Drop the place at the current level. -/
def dropCandidate (s : TokenStream) : Except Fault TokenStream :=
  if s.candidates.any fun k => k.1 = s.flowLevel && k.2.required then .error .malformed
  else .ok { s with candidates := s.candidates.filter fun k => k.1 ≠ s.flowLevel }

/-- Remember that a key may begin here. -/
def noteCandidate (s : TokenStream) : Except Fault TokenStream :=
  if s.keyAllowed then do
    let s ← s.dropCandidate
    let c := s.cursor
    let k : KeyCandidate :=
      { place := s.count
        required := !s.inFlow && s.indent = c.column
        index := c.index, line := c.line, column := c.column }
    return { s with candidates := s.candidates ++ [(s.flowLevel, k)] }
  else .ok s

/-! ### Indentation -/

/-- Close the block collections that are indented further than `column`. -/
def closeBlocks (column indent : Int) : List Int → List Token × Int × List Int
  | [] => ([], indent, [])
  | i :: outer =>
    if column < indent then
      let (closed, indent, outer) := closeBlocks column i outer
      (.blockEnd :: closed, indent, outer)
    else ([], indent, i :: outer)

/-- Close the block collections that a text at `column` no longer belongs to. -/
def unwind (s : TokenStream) (column : Int) : TokenStream :=
  if s.inFlow then s
  else
    let (closed, indent, outer) := closeBlocks column s.indent s.outer
    closed.foldl push { s with indent, outer }

/-- Open a block collection at `column`, if it is indented further than the innermost. The token
that opens it is put in at `place`. -/
def openBlock (s : TokenStream) (column place : Nat) (t : Token) : TokenStream :=
  if s.indent < column then
    { s with indent := column, outer := s.indent :: s.outer }.put place t
  else s

/-! ### Tokens with a text -/

/-- The position behind blanks, comments and line ends. Outside of flow collections a key may begin
behind a line end. -/
def skipToToken (fuel : Nat) (inFlow keyAllowed : Bool) (c : Cursor) : Cursor × Bool :=
  let c := c.skipSpaces
  let c := if c.peek = '#' then c.skipLine else c
  match fuel, c.lineBreak with
  | 0, _ | _, ([], _) => (c, keyAllowed)
  | fuel + 1, (_, c) => skipToToken fuel inFlow (keyAllowed || !inFlow) c

/-- The name of an anchor, and the position behind it. -/
def anchorName (c : Cursor) : Except Fault (String × Cursor) :=
  let (name, c) := c.takeWhile isNameChar
  if name.isEmpty then .error .malformed
  else if isGapOrEnd c.peek || "?:,]\x7d%@`".contains c.peek then .ok (String.ofList name, c)
  else .error .malformed

/-- Whether `c` may stand in a tag. -/
def isTagChar (c : Char) : Bool := c.isAlphanum || "-;/?:@&=+$,_.!~*'()[]%".contains c

/-- Bytes that are written as a percent sign and two hexadecimal digits each. -/
def tagBytes (fuel : Nat) (c : Cursor) : Except Fault (List UInt8 × Cursor) :=
  match fuel with
  | 0 => .error .malformed
  | fuel + 1 =>
    if c.peek = '%' then
      let ds := c.next.rest.take 2
      if ds.length = 2 ∧ ds.all isHexDigit then do
        let (more, c) ← tagBytes fuel (c.advance 3)
        return (UInt8.ofNat (hexNumber ds) :: more, c)
      else .error .malformed
    else .ok ([], c)

/-- The characters of a tag, and the position behind them. -/
def tagChars (fuel : Nat) (c : Cursor) : Except Fault (List Char × Cursor) :=
  match fuel with
  | 0 => .error .malformed
  | fuel + 1 =>
    if c.peek = '%' then do
      let (bytes, c) ← tagBytes (c.rest.length + 1) c
      match Text.decode bytes with
      | .error _ => .error .malformed
      | .ok cs =>
        let (more, c) ← tagChars fuel c
        return (cs ++ more, c)
    else if isTagChar c.peek then do
      let (more, d) ← tagChars fuel c.next
      return (c.peek :: more, d)
    else .ok ([], c)

/-- The part of a tag that is written out, which is not empty. -/
def tagSuffix (c : Cursor) : Except Fault (String × Cursor) := do
  let (cs, d) ← tagChars (c.rest.length + 1) c
  if d.index = c.index then .error .malformed else return (String.ofList cs, d)

/-- The handle of a tag: an exclamation mark, or a name between two. -/
def tagHandle (c : Cursor) : Except Fault (String × Cursor) :=
  if c.peek ≠ '!' then .error .malformed
  else if c.peekAt 1 = ' ' then .ok ("!", c.next)
  else
    let (name, c) := c.next.takeWhile isNameChar
    if c.peek = '!' then .ok ("!" ++ String.ofList name ++ "!", c.next) else .error .malformed

/-- Whether the tag ahead has a handle that is closed by a second exclamation mark. -/
def hasHandle (c : Cursor) : Bool :=
  (c.next.rest.takeWhile fun x => !isSpaceOrEnd x).contains '!'

/-- A tag, and the position behind it. -/
def tagText (c : Cursor) : Except Fault (TagText × Cursor) := do
  let (t, c) ←
    if c.peekAt 1 = '<' then
      let (suffix, c) ← tagSuffix (c.advance 2)
      if c.peek = '>' then pure (TagText.mk none suffix, c.next) else throw .malformed
    else if isGapOrEnd (c.peekAt 1) then pure (TagText.mk none "!", c.next)
    else
      let (handle, c) ← if hasHandle c then tagHandle c else pure ("!", c.next)
      let (suffix, c) ← tagSuffix c
      pure (TagText.mk (some handle) suffix, c)
  if isSpaceOrEnd c.peek then return (t, c) else throw .malformed

/-- A number of a version, and the position behind it. -/
def versionNumber (c : Cursor) : Except Fault (Nat × Cursor) :=
  let (ds, c) := c.takeWhile Char.isDigit
  if ds.isEmpty then .error .malformed
  else if maxDigits < ds.length then .error (.tooManyDigits ds.length)
  else .ok (ds.foldl (fun n d => 10 * n + (d.toNat - 48)) 0, c)

/-- The value of a directive of the given name, and the position behind it. -/
def directiveValue (name : String) (c : Cursor) : Except Fault (Directive × Cursor) := do
  if name = "YAML" then
    let (major, c) ← versionNumber c.skipSpaces
    if c.peek ≠ '.' then throw .malformed
    let (_, c) ← versionNumber c.next
    if !isSpaceOrEnd c.peek then throw .malformed
    return (.version major, c)
  else if name = "TAG" then
    let (handle, c) ← tagHandle c.skipSpaces
    if c.peek ≠ ' ' then throw .malformed
    let (expansion, c) ← tagSuffix c.skipSpaces
    if !isSpaceOrEnd c.peek then throw .malformed
    return (.tagHandle handle expansion, c)
  else return (.unknown, c.skipLine)

/-- A directive, and the position behind its line. -/
def directive (c : Cursor) : Except Fault (Directive × Cursor) := do
  let (name, c) := c.next.takeWhile isNameChar
  if name.isEmpty || !isSpaceOrEnd c.peek then throw .malformed
  let (d, c) ← directiveValue (String.ofList name) c
  let c := c.skipSpaces
  let c := if c.peek = '#' then c.skipLine else c
  if !isBreakOrEnd c.peek then throw .malformed
  return (d, c.lineBreak.2)

/-! ### The next token -/

/-- End the block collections in front of a token that belongs to the document as a whole. -/
def endBlocks (s : TokenStream) : Except Fault TokenStream := do
  let s ← (s.unwind (-1)).dropCandidate
  return { s with keyAllowed := false }

/-- A marker of three characters that starts or ends a document. -/
def documentMarker (s : TokenStream) (t : Token) : Except Fault TokenStream := do
  return (← s.endBlocks).take 3 t

/-- The bracket that opens a flow collection. -/
def openFlow (s : TokenStream) (t : Token) : Except Fault TokenStream := do
  let s ← s.noteCandidate
  return { s with flowLevel := s.flowLevel + 1, keyAllowed := true }.take 1 t

/-- The bracket that closes a flow collection. One that closes nothing is at fault. -/
def closeFlow (s : TokenStream) (t : Token) : Except Fault TokenStream := do
  let s ← s.dropCandidate
  if s.flowLevel = 0 then throw .malformed
  return { s with flowLevel := s.flowLevel - 1, keyAllowed := false }.take 1 t

/-- The comma between the entries of a flow collection. -/
def flowEntry (s : TokenStream) : Except Fault TokenStream := do
  let s ← s.dropCandidate
  return { s with keyAllowed := true }.take 1 .flowEntry

/-- The hyphen in front of an entry of a block sequence. -/
def blockEntry (s : TokenStream) : Except Fault TokenStream := do
  if !s.inFlow && !s.keyAllowed then throw .malformed
  let s := if s.inFlow then s
    else s.openBlock s.cursor.column s.count .blockSequenceStart
  let s ← s.dropCandidate
  return { s with keyAllowed := true }.take 1 .blockEntry

/-- The question mark in front of a key. -/
def explicitKey (s : TokenStream) : Except Fault TokenStream := do
  if !s.inFlow && !s.keyAllowed then throw .malformed
  let s := if s.inFlow then s
    else s.openBlock s.cursor.column s.count .blockMappingStart
  let s ← s.dropCandidate
  return { s with keyAllowed := !s.inFlow }.take 1 .key

/-- The colon between a key and its value. If a key may have begun on the line, it has. -/
def colon (s : TokenStream) : Except Fault TokenStream := do
  match s.candidates.find? (·.1 = s.flowLevel) with
  | some (_, k) =>
    let s := { s with candidates := s.candidates.filter (·.1 ≠ s.flowLevel) }
    let s := s.put k.place .key
    let s := if s.inFlow then s else s.openBlock k.column k.place .blockMappingStart
    return { s with keyAllowed := false }.take 1 .value
  | none =>
    if !s.inFlow && !s.keyAllowed then throw .malformed
    let s := if s.inFlow then s
      else s.openBlock s.cursor.column s.count .blockMappingStart
    let s ← s.dropCandidate
    return { s with keyAllowed := !s.inFlow }.take 1 .value

/-- A token that may begin a key, given with the position behind it. -/
def keyPart (s : TokenStream) (read : Cursor → Except Fault (Token × Cursor)) :
    Except Fault TokenStream := do
  let s ← s.noteCandidate
  let (t, cursor) ← read s.cursor
  return { s with cursor, keyAllowed := false }.push t

/-- A plain scalar. Behind one that ends with a line end a key may begin. -/
def plain (s : TokenStream) : Except Fault TokenStream := do
  let s ← s.noteCandidate
  let (text, keyAllowed, cursor) := plainScalar (s.indent + 1) s.inFlow s.cursor
  return { s with cursor, keyAllowed }.push (.scalar text true)

/-- A block scalar. -/
def block (s : TokenStream) (folded : Bool) : Except Fault TokenStream := do
  let s ← s.dropCandidate
  let (text, cursor) ← blockScalar folded s.indent s.cursor
  return { s with cursor, keyAllowed := true }.push (.scalar text false)

/-- Whether a plain scalar begins with the characters ahead. -/
def beginsPlain (s : TokenStream) : Bool :=
  let c := s.cursor.peek
  let indicator := isGapOrEnd c || "-?:,[]\x7b\x7d#&*!|>'\"%@`".contains c
  let followed := !isGapOrEnd (s.cursor.peekAt 1)
  !indicator || (followed && (c = '-' || (!s.inFlow && (c = '?' || c = ':'))))

/-- Add the token that the next character begins. -/
def dispatch (s : TokenStream) : Except Fault TokenStream :=
  let c := s.cursor.peek
  let gap := isGapOrEnd (s.cursor.peekAt 1)
  let atStart := s.cursor.column = 0
  if c = '%' ∧ atStart then do
    let s ← s.endBlocks
    let (d, cursor) ← directive s.cursor
    return { s with cursor }.push (.directive d)
  else if atStart ∧ s.cursor.atMarker '-' then s.documentMarker .documentStart
  else if atStart ∧ s.cursor.atMarker '.' then s.documentMarker .documentEnd
  else if c = '[' then s.openFlow .flowSequenceStart
  else if c = '\x7b' then s.openFlow .flowMappingStart
  else if c = ']' then s.closeFlow .flowSequenceEnd
  else if c = '\x7d' then s.closeFlow .flowMappingEnd
  else if c = ',' then s.flowEntry
  else if c = '-' ∧ gap then s.blockEntry
  else if c = '?' ∧ (s.inFlow ∨ gap) then s.explicitKey
  else if c = ':' ∧ (s.inFlow ∨ gap) then s.colon
  else if c = '*' then
    s.keyPart fun c => (anchorName c.next).map fun (n, c) => (.alias n, c)
  else if c = '&' then
    s.keyPart fun c => (anchorName c.next).map fun (n, c) => (.anchor n, c)
  else if c = '!' then s.keyPart fun c => (tagText c).map fun (t, c) => (.tag t, c)
  else if c = '|' ∧ !s.inFlow then s.block false
  else if c = '>' ∧ !s.inFlow then s.block true
  else if c = '\'' ∨ c = '"' then
    s.keyPart fun c => (quotedScalar c).map fun (t, c) => (.scalar t false, c)
  else if s.beginsPlain then s.plain
  else .error .malformed

/-- Add the next token, and tell whether it is the last. -/
def step (s : TokenStream) : Except Fault (TokenStream × Bool) := do
  let (cursor, keyAllowed) :=
    skipToToken (s.cursor.rest.length + 1) s.inFlow s.keyAllowed s.cursor
  let s ← dropStale { s with cursor, keyAllowed }
  let s := s.unwind s.cursor.column
  if s.cursor.rest.isEmpty then
    let s ← s.endBlocks
    return (s.push .streamEnd, true)
  else return (← s.dispatch, false)

/-- The tokens in front of the first place where a key may have begun. Those behind it are not
given out before it is known whether one has. -/
def settledTokens (s : TokenStream) : List Token :=
  match (s.candidates.map fun k => k.2.place).min? with
  | some place => s.tokens.take place
  | none => s.tokens

/-- The number of characters behind a token that may be looked at to tell where it ends. -/
def lookahead : Nat := 4

/-- Add tokens up to the last or the first fault. Where the text is cut off, the fault that shows
there is that of the first token that cannot be told without what follows. The number of steps is
bounded by the number of characters left. -/
def run (fuel : Nat) (cut : Option Fault) (s : TokenStream) : List Token × Option Fault :=
  match fuel, s.dropStale with
  | 0, _ => (s.tokens, some .malformed)
  | _, .error e => (s.settledTokens, some e)
  | fuel + 1, .ok s =>
    match s.step, cut with
    | .error .unclosed, some f => (s.settledTokens, some f)
    | .error .unclosed, none => (s.settledTokens, some .malformed)
    | .error e, _ => (s.settledTokens, some e)
    | .ok (next, _), some f =>
      if (next.cursor.rest.drop (lookahead - 1)).isEmpty then (s.settledTokens, some f)
      else run fuel cut next
    | .ok (next, true), none => (next.tokens, none)
    | .ok (next, false), none => run fuel cut next

end TokenStream

/-- The tokens of a text, up to the last or the first fault. A mark of the byte order at the
beginning of the text is left out. -/
def tokensOf (input : Input) : List Token × Option Fault :=
  let s := TokenStream.start input.text
  let s := if s.cursor.peek = byteOrderMark then { s with cursor := s.cursor.next } else s
  s.run (input.text.length + 2) input.cut

end ParenLint.Yaml
