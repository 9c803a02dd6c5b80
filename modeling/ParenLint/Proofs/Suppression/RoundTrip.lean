import ParenLint.Proofs.Source.LineIndex
import ParenLint.Proofs.Suppression.Spelling
import ParenLint.Proofs.Swift.Element
import ParenLint.Proofs.Swift.Scan

/-!
# Lines with commands

A file whose lines each hold one comment with a command has these commands, each on its line and at
the character where its text begins. A file that has the same texts in strings has none.
-/

namespace ParenLint

open ParenLint.Command ParenLint.Swift ParenLint.Text

variable {c : Char} {cs front rest : List Char}

/-! ### Comments and strings -/

namespace Swift.Element

/-- The characters between the delimiters of a comment or a string. -/
def content? : Element → Option (List Char)
  | lineComment body _ => some body
  | blockComment body => some body.chars
  | string body _ => some (StringUnit.texts body)
  | multilineString body _ _ _ => some (StringUnit.texts body)
  | _ => none

/-- What opens a comment or a string. -/
def opening : Element → List Char
  | lineComment _ _ => ['/', '/']
  | blockComment _ => ['/', '*']
  | string _ _ => ['"']
  | multilineString _ _ _ _ => tripleQuotes
  | _ => []

/-- What closes a comment or a string. -/
def closing : Element → List Char
  | blockComment _ => ['*', '/']
  | string _ _ => ['"']
  | multilineString _ _ _ _ => tripleQuotes
  | _ => []

lemma chars_of_content? {e : Element} (h : e.content? = some cs) :
    e.chars = e.opening ++ (cs ++ e.closing) := by
  cases e <;> simp_all [content?, chars, opening, closing, multilineLiteral]

/-- A comment or a string that is not empty is read to its end, also at the end of the text. -/
lemma lexeme?_of_content? {e : Element} (h : e.content? = some cs) (hcs : cs ≠ [])
    (hrest : ∀ c ∈ rest.head?, c = '\n') :
    lexeme? (e.chars ++ rest) = some (e.kind, e.chars.length) := by
  cases e with
  | lineComment body hbody => exact lexeme?_lineComment hbody hrest
  | blockComment body =>
    have hread := lexeme?_blockComment body rest
    simpa [chars, kind] using hread
  | string body hbody =>
    -- An empty string might go on as a string between triple quotes.
    have hbody' : body ≠ [] := by
      rintro rfl
      exact hcs (Option.some.inj h).symm
    have hread := lexeme?_string hbody rest fun heq => absurd heq hbody'
    simpa [chars, kind] using hread
  | multilineString body hbody hlast hescaped =>
    exact lexeme?_multilineLiteral hbody hlast hescaped rest
  | _ => cases h

end Swift.Element

/-! ### Lines -/

/-- A line with a comment or a string in which one command is written, perhaps among other text. -/
structure CommandLine where
  indentation : List Char
  element : Element
  before : List Char
  spelling : Spelling
  after : List Char
  isGap_indentation : ∀ c ∈ indentation, isGap c = true
  content : element.content? = some (before ++ (spelling.chars ++ after))
  one_line : '\n' ∉ before ++ after
  no_introduction_before : ¬ introduction <:+: before
  no_introduction_after : ¬ introduction <:+: after
  ends : EndsNames after

namespace CommandLine

/-- The characters of a line in front of its command. -/
def lead (l : CommandLine) : List Char := l.indentation ++ (l.element.opening ++ l.before)

/-- The characters of a line. -/
def chars (l : CommandLine) : List Char :=
  l.lead ++ (l.spelling.chars ++ (l.after ++ l.element.closing))

/-- The text of lines that each end in a newline, and of a last line that does not. -/
def text (lines : List CommandLine) (last : Option CommandLine) : List Char :=
  lines.flatMap (fun l => l.chars ++ ['\n']) ++ last.elim [] chars

/-- The commands on a line: the one that is written there, if it is written in a comment. -/
def commandsOn (line : Int) (l : CommandLine) : List Command :=
  if l.element.kind = .comment then [l.spelling.command (line, l.lead.length + 1)] else []

lemma chars_eq (l : CommandLine) : l.chars = l.indentation ++ l.element.chars := by
  rw [Element.chars_of_content? l.content, chars, lead]
  simp only [List.append_assoc]

/-- The blanks and the token that a line is scanned as. -/
def parts (l : CommandLine) : List Part :=
  l.indentation.map .loose ++ [.token l.element.kind l.element.chars]

lemma scan (l : CommandLine) (rest : List Char) (hrest : ∀ c ∈ rest.head?, c = '\n') :
    Scan l.chars rest l.parts := by
  have hcontent : l.before ++ (l.spelling.chars ++ l.after) ≠ [] := by
    simp [l.spelling.chars_ne_nil]
  have hinert : ∀ c ∈ l.indentation, IsInert c := by
    intro c hc
    rcases of_decide_eq_true (l.isGap_indentation c hc) with rfl | rfl
    · exact isInert_of_isBlank rfl
    · exact isInert_of_isBlank rfl
  rw [chars_eq]
  exact (Scan.of_isInert hinert _).append
    (.single_token (Element.lexeme?_of_content? l.content hcontent hrest))

/-- The parts that lines are scanned as. -/
def partsOf (lines : List CommandLine) (last : Option CommandLine) : List Part :=
  lines.flatMap (fun l => l.parts ++ [.loose '\n']) ++ last.elim [] parts

lemma text_cons (l : CommandLine) (lines : List CommandLine) (last : Option CommandLine) :
    text (l :: lines) last = l.chars ++ '\n' :: text lines last := by
  simp [text]

lemma partsOf_cons (l : CommandLine) (lines : List CommandLine) (last : Option CommandLine) :
    partsOf (l :: lines) last = l.parts ++ .loose '\n' :: partsOf lines last := by
  simp [partsOf]

lemma texts_parts (l : CommandLine) : Part.texts l.parts = l.chars :=
  (l.scan [] (by simp)).texts_eq

lemma scan_text (lines : List CommandLine) (last : Option CommandLine) :
    Scan (text lines last) [] (partsOf lines last) := by
  induction lines with
  | nil =>
    cases last with
    | none => exact .nil []
    | some l => exact l.scan [] (by simp)
  | cons l lines ih =>
    rw [text_cons, partsOf_cons]
    exact (l.scan _ (by simp)).append (.loose (lexeme?_of_isInert (isInert_of_isBlank rfl) _) ih)

end CommandLine

/-! ### Commands among parts -/

namespace Command

/-- The commands in the comments among parts that begin at `start`. -/
def amongParts (place : Int → Int × Int) (start : Nat) : List Part → List Command
  | [] => []
  | .token kind text :: parts =>
    (if kind = .comment then readFrom place start text else []) ++
      amongParts place (start + text.length) parts
  | .loose _ :: parts => amongParts place (start + 1) parts

lemma amongParts_append (place : Int → Int × Int) (start : Nat) (ps qs : List Part) :
    amongParts place start (ps ++ qs) =
      amongParts place start ps ++ amongParts place (start + (Part.texts ps).length) qs := by
  induction ps generalizing start with
  | nil => rfl
  | cons p ps ih =>
    rw [Part.texts_cons, List.length_append, ← Nat.add_assoc]
    cases p with
    | token kind text =>
      rw [List.cons_append, amongParts, ih, amongParts, List.append_assoc]
      rfl
    | loose c => exact ih _

lemma amongParts_map_loose (place : Int → Int × Int) (start : Nat) (cs : List Char) :
    amongParts place start (cs.map .loose) = [] := by
  induction cs generalizing start with
  | nil => rfl
  | cons c cs ih => exact ih _

lemma flatMap_comments_tokensAt (place : Int → Int × Int) (before : List Char)
    (parts : List Part) :
    ((Token.comments (Part.tokensAt before.length parts)).flatMap fun t =>
        readFrom place t.start (t.text (before ++ Part.texts parts))) =
      amongParts place before.length parts := by
  induction parts generalizing before with
  | nil => rfl
  | cons p parts ih =>
    have hbehind := ih (before ++ p.text)
    rw [List.append_assoc before, ← Part.texts_cons, List.length_append] at hbehind
    cases p with
    | token kind text =>
      rw [Part.text] at hbehind
      have hhead : Token.text ⟨before.length, text.length, kind⟩
          (before ++ Part.texts (.token kind text :: parts)) = text := by
        simp [Token.text, Part.text]
      rw [Part.tokensAt, amongParts, ← hbehind, Token.comments, List.filter_cons]
      split_ifs with hkind hkind' hkind'
      · rw [List.flatMap_cons, hhead]
        rfl
      · exact absurd (of_decide_eq_true hkind) hkind'
      · exact absurd (decide_eq_true hkind') hkind
      · rfl
    | loose c => exact hbehind

/-- The commands of a file are found part by part. -/
lemma inComments_eq_amongParts {file : SourceFile} {parts : List Part}
    (h : Scan file.contents [] parts) :
    inComments file (tokens file.contents) = amongParts (positionIn file.lineStarts) 0 parts := by
  have hread := flatMap_comments_tokensAt (positionIn file.lineStarts) [] parts
  rw [List.nil_append, h.texts_eq] at hread
  rw [inComments, h.tokens_eq]
  exact hread

end Command

/-! ### Reading the lines -/

namespace CommandLine

lemma newline_not_mem_delimiters (e : Element) : '\n' ∉ e.opening ++ e.closing := by
  cases e <;> simp [Element.opening, Element.closing, tripleQuotes]

lemma newline_not_mem_lead (l : CommandLine) : '\n' ∉ l.lead := by
  have hdelimiters := newline_not_mem_delimiters l.element
  have hline := l.one_line
  rw [List.mem_append, not_or] at hdelimiters hline
  rw [lead, List.mem_append, List.mem_append, not_or, not_or]
  refine ⟨fun hmem => ?_, hdelimiters.1, hline.1⟩
  cases l.isGap_indentation _ hmem

lemma newline_not_mem_chars (l : CommandLine) : '\n' ∉ l.chars := by
  have hdelimiters := newline_not_mem_delimiters l.element
  have hline := l.one_line
  have hcommand : '\n' ∉ l.spelling.chars := l.spelling.not_mem_chars (by simp)
  rw [List.mem_append, not_or] at hdelimiters hline
  simp [chars, l.newline_not_mem_lead, hcommand, hline.2, hdelimiters.2]

/-- The delimiters of a comment have nothing to do with commands. -/
lemma of_mem_delimiters {e : Element} (he : e.kind = .comment) (hc : c ∈ e.opening ++ e.closing) :
    c ∉ introduction ∧ isGap c = false ∧ isRuleChar c = false := by
  have hmark : c ∈ ['/', '*'] := by
    cases e with
    | lineComment body h => exact (by simp : ['/', '/'] ⊆ ['/', '*']) hc
    | blockComment body => exact (by simp : ['/', '*', '*', '/'] ⊆ ['/', '*']) hc
    | word first tail hfirst htail =>
      rw [Element.kind, nameKind] at he
      split_ifs at he
    | _ => cases he
  rcases List.mem_pair.mp hmark with rfl | rfl
  · exact ⟨by decide, rfl, rfl⟩
  · exact ⟨by decide, rfl, rfl⟩

/-- The command on a line is placed on that line, behind what stands in front of it. -/
lemma amongParts_parts (l : CommandLine) (hfront : ∀ c ∈ front.getLast?, c = '\n')
    (rest : List Char) :
    amongParts (positionIn (lineStarts (front ++ (l.chars ++ rest)))) front.length l.parts =
      l.commandsOn (front.count '\n' + 1) := by
  have hplace := positionIn_behind_lines hfront l.newline_not_mem_lead
    (l.spelling.chars ++ (l.after ++ l.element.closing) ++ rest)
  rw [← List.append_assoc l.lead, ← chars] at hplace
  generalize positionIn (lineStarts (front ++ (l.chars ++ rest))) = place at hplace ⊢
  have hindentation : Part.texts (l.indentation.map .loose) = l.indentation := by
    simp [Part.texts, Part.text, List.flatMap_map]
  rw [parts, amongParts_append, amongParts_map_loose, List.nil_append, hindentation, amongParts,
    amongParts, List.append_nil, commandsOn]
  split_ifs with hkind
  · have hopening : ∀ c ∈ l.element.opening, c ∉ introduction :=
      fun c hc => (of_mem_delimiters hkind (List.mem_append_left _ hc)).1
    have hclosing : ∀ c ∈ l.element.closing,
        c ∉ introduction ∧ isGap c = false ∧ isRuleChar c = false :=
      fun c hc => of_mem_delimiters hkind (List.mem_append_right _ hc)
    have hread := l.spelling.readFrom_chars place (front.length + l.indentation.length)
      (not_infix_append_left hopening l.no_introduction_before)
      (not_infix_append_right (fun c hc => (hclosing c hc).1) l.no_introduction_after)
      (l.ends.append fun c hc => (hclosing c hc).2)
    have hlead : front.length + l.indentation.length + (l.element.opening ++ l.before).length =
        front.length + l.lead.length := by
      simp only [lead, List.length_append, Nat.add_assoc]
    rw [hlead, hplace] at hread
    rw [← hread, Element.chars_of_content? l.content]
    simp only [List.append_assoc]
  · rfl

/-- The commands on lines are placed behind the whole lines in front of them. -/
lemma amongParts_partsOf (front : List Char) (hfront : ∀ c ∈ front.getLast?, c = '\n')
    (lines : List CommandLine) (last : Option CommandLine) :
    amongParts (positionIn (lineStarts (front ++ text lines last))) front.length
        (partsOf lines last) =
      ((lines ++ last.toList).zipIdx (front.count '\n')).flatMap fun p =>
        p.1.commandsOn (p.2 + 1) := by
  induction lines generalizing front with
  | nil =>
    cases last with
    | none => rfl
    | some l =>
      have hline := l.amongParts_parts hfront []
      simpa [text, partsOf] using hline
  | cons l lines ih =>
    -- A line that has been read becomes part of the front, which then still ends with a newline.
    have hline := l.amongParts_parts hfront ('\n' :: text lines last)
    have hcount : (front ++ (l.chars ++ ['\n'])).count '\n' = front.count '\n' + 1 := by
      simp [List.count_eq_zero_of_not_mem l.newline_not_mem_chars]
    have hlines := ih (front ++ (l.chars ++ ['\n'])) (by simp)
    rw [hcount, List.append_assoc, List.append_assoc, List.singleton_append] at hlines
    rw [text_cons, partsOf_cons, amongParts_append, hline, texts_parts, amongParts,
      List.cons_append, List.zipIdx_cons, List.flatMap_cons, ← hlines]
    simp [Nat.add_assoc]

/-- The commands of a file are those on its lines, the lines counted from one. -/
theorem inComments_text (lines : List CommandLine) (last : Option CommandLine)
    (path : Option String) :
    inComments (SourceFile.ofContents (text lines last) path) (tokens (text lines last)) =
      (lines ++ last.toList).zipIdx.flatMap fun p => p.1.commandsOn (p.2 + 1) := by
  have hfile : (SourceFile.ofContents (text lines last) path).contents = text lines last := rfl
  have hread := inComments_eq_amongParts (hfile.symm ▸ scan_text lines last)
  exact hread.trans (amongParts_partsOf [] (by simp) lines last)

end CommandLine

/-- A line with a command in a comment. -/
structure CommentLine extends CommandLine where
  kind_eq : element.kind = .comment

/-- A line with a command in a string. -/
structure StringLine extends CommandLine where
  kind_eq : element.kind = .string

lemma CommentLine.commandsOn_eq (l : CommentLine) (line : Int) :
    l.commandsOn line = [l.spelling.command (line, l.lead.length + 1)] := by
  rw [CommandLine.commandsOn, if_pos l.kind_eq]

lemma StringLine.commandsOn_eq (l : StringLine) (line : Int) : l.commandsOn line = [] := by
  rw [CommandLine.commandsOn, if_neg (by simp [l.kind_eq])]

namespace Command.Spelling

variable (s : Spelling)

/-- The command alone in a line comment. -/
def lineComment : CommentLine where
  indentation := []
  element := .lineComment (' ' :: s.chars) (by simp [s.not_mem_chars])
  before := [' ']
  spelling := s
  after := []
  isGap_indentation := by simp
  content := by simp [Element.content?]
  one_line := by simp
  no_introduction_before := by decide
  no_introduction_after := by decide
  ends := by simp [EndsNames]
  kind_eq := rfl

/-- The command between blanks as the text of a block comment. -/
def commentText : CommentText where
  chars := (' ' :: s.chars) ++ [' ']
  no_opening h := by
    have hmem : '/' ∈ (' ' :: s.chars) ++ [' '] := h.mem (by simp)
    simp [s.not_mem_chars] at hmem
  no_closing h := by
    have hmem : '/' ∈ (' ' :: s.chars) ++ [' '] := h.mem (by simp)
    simp [s.not_mem_chars] at hmem

lemma getLast?_commentText : s.commentText.chars.getLast? = some ' ' := List.getLast?_concat

/-- The command alone in a block comment. -/
def blockComment : CommentLine where
  indentation := []
  element := .blockComment (.text s.commentText (by simp [s.getLast?_commentText]))
  before := [' ']
  spelling := s
  after := [' ']
  isGap_indentation := by simp
  content := by simp [Element.content?, CommentBody.chars, commentText]
  one_line := by simp
  no_introduction_before := by decide
  no_introduction_after := by decide
  ends := by simp [EndsNames, isGap]
  kind_eq := rfl

/-- The text of the line comment in a string. -/
def string : StringLine where
  indentation := []
  element := .string (('/' :: '/' :: ' ' :: s.chars).map .plain) (by
    have hinline : ∀ c ∈ '/' :: '/' :: ' ' :: s.chars, c ≠ '"' ∧ c ≠ '\\' ∧ c ≠ '\n' := by
      intro c hc
      refine ⟨?_, ?_, ?_⟩ <;> rintro rfl <;> simp [s.not_mem_chars] at hc
    simpa [StringUnit.IsInline] using hinline)
  before := ['/', '/', ' ']
  spelling := s
  after := []
  isGap_indentation := by simp
  content := by simp [Element.content?, StringUnit.texts, StringUnit.text, List.flatMap_map]
  one_line := by simp
  no_introduction_before := by decide
  no_introduction_after := by decide
  ends := by simp [EndsNames]
  kind_eq := rfl

/-- Every command can be written in a comment of either form and in a string. -/
theorem chars_of_lines :
    s.lineComment.chars = "// ".toList ++ s.chars ∧
      s.blockComment.chars = "/* ".toList ++ s.chars ++ " */".toList ∧
      s.string.chars = "\"// ".toList ++ s.chars ++ "\"".toList := by
  simp [CommandLine.chars, CommandLine.lead, lineComment, blockComment, string, Element.opening,
    Element.closing]

end Command.Spelling

/-- The commands in the comments of a file that has one on each line are read back in their order,
each with its rules, on its line and at the character where its text begins. In strings the same
texts give no command. -/
theorem command_lines_are_read_back (path : Option String) :
    (∀ (lines : List CommentLine) (last : Option CommentLine),
      let contents := CommandLine.text (lines.map (·.toCommandLine)) (last.map (·.toCommandLine))
      inComments (SourceFile.ofContents contents path) (tokens contents) =
        (lines ++ last.toList).zipIdx.map fun p =>
          p.1.spelling.command (p.2 + 1, p.1.lead.length + 1)) ∧
      ∀ (lines : List StringLine) (last : Option StringLine),
        let contents := CommandLine.text (lines.map (·.toCommandLine)) (last.map (·.toCommandLine))
        inComments (SourceFile.ofContents contents path) (tokens contents) = [] := by
  constructor
  · intro lines last contents
    rw [CommandLine.inComments_text, Option.toList_map, ← List.map_append, List.zipIdx_map,
      List.flatMap_map, List.map_eq_flatMap]
    simp only [Prod.map, id, CommentLine.commandsOn_eq]
  · intro lines last contents
    rw [CommandLine.inComments_text, Option.toList_map, ← List.map_append, List.zipIdx_map,
      List.flatMap_map]
    simp only [Prod.map, StringLine.commandsOn_eq, List.flatMap_eq_nil_iff, implies_true]

/-- Names of rules may look like parts of a command. -/
example :
    let contents := "/* swiftlint:disable:this a-b\tenable */\n// swiftlint:enable next .".toList
    inComments (SourceFile.ofContents contents none) (tokens contents) =
      [⟨.disable, ["a-b", "enable"], 1, 4, some .this⟩, ⟨.enable, ["next", "."], 2, 4, none⟩] := by
  decide +kernel

end ParenLint
