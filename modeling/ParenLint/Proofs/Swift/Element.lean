import ParenLint.Proofs.Swift.StringBody
import ParenLint.Proofs.Text.Stretch

/-!
# Lexical elements

The forms that the elements of a Swift text can have, each with the characters that it is written
with. An element is read back as one lexeme of its kind and length where a blank or a newline
follows it.
-/

namespace ParenLint.Swift

open ParenLint.Text StringUnit

variable {x c : Char} {cs text rest : List Char}

/-! ### Block comments -/

/-- A stretch of text in a block comment, within which no comment begins or ends. -/
structure CommentText where
  chars : List Char
  no_opening : ¬ ['/', '*'] <:+: chars
  no_closing : ¬ ['*', '/'] <:+: chars

/-- What stands between the delimiters of a block comment. -/
inductive CommentBody
  /-- Text up to the end of the comment. -/
  | text (front : CommentText) (h : front.chars.getLast? ≠ some '/')
  /-- Text up to a comment within the comment, and what follows that. -/
  | nested (front : CommentText) (h : front.chars.getLast? ≠ some '*') (inner rest : CommentBody)

/-- The characters of the body of a comment. -/
def CommentBody.chars : CommentBody → List Char
  | .text front _ => front.chars
  | .nested front _ inner rest =>
    front.chars ++ '/' :: '*' :: (inner.chars ++ '*' :: '/' :: rest.chars)

/-- Within text no comment begins and none ends, so the reader comes to what follows it. -/
lemma blockCommentRest_append (hopen : ¬ ['/', '*'] <:+: text ++ [x])
    (hclose : ¬ ['*', '/'] <:+: text ++ [x]) (depth : Nat) (rest : List Char) :
    blockCommentRest depth (text ++ x :: rest) =
      text.length + blockCommentRest depth (x :: rest) := by
  induction text with
  | nil => simp
  | cons y text ih =>
    have hrest := ih (fun hpart => hopen (List.infix_cons hpart))
      fun hpart => hclose (List.infix_cons hpart)
    obtain ⟨z, tail, htail⟩ : ∃ z tail, text ++ [x] = z :: tail :=
      List.exists_cons_of_ne_nil (by simp)
    have htext : text ++ x :: rest = z :: (tail ++ rest) := by
      rw [← List.singleton_append, ← List.append_assoc, htail, List.cons_append]
    rw [List.cons_append, htail] at hopen hclose
    have hopen' : ¬ (y = '/' ∧ z = '*') := by
      rintro ⟨rfl, rfl⟩
      exact hopen ⟨[], tail, rfl⟩
    have hclose' : ¬ (y = '*' ∧ z = '/') := by
      rintro ⟨rfl, rfl⟩
      exact hclose ⟨[], tail, rfl⟩
    rw [List.cons_append, htext, blockCommentRest_cons_cons, if_neg hopen', if_neg hclose',
      ← htext, hrest, List.length_cons]
    omega

/-- Two characters that stand in a row at the end of a longer text are its last two. -/
lemma not_infix_append_singleton {y z : Char} (h : ¬ [y, z] <:+: text)
    (hlast : x = z → text.getLast? ≠ some y) : ¬ [y, z] <:+: text ++ [x] := by
  rw [List.infix_concat_iff, List.suffix_concat_iff]
  rintro ((hnil | ⟨front, heq, hfront⟩) | hpart)
  · cases hnil
  · have hsplit : [y] ++ [z] = front ++ [x] := heq
    obtain ⟨rfl, hz⟩ := List.append_inj' hsplit rfl
    exact hlast (List.head_eq_of_cons_eq hz).symm
      (List.singleton_suffix_iff_getLast?_eq_some.mp hfront)
  · exact h hpart

/-- The reader passes over the body of a comment, whatever the depth is that it has come to. -/
lemma blockCommentRest_chars (body : CommentBody) (depth : Nat) (rest : List Char) :
    blockCommentRest depth (body.chars ++ '*' :: '/' :: rest) =
      body.chars.length + blockCommentRest depth ('*' :: '/' :: rest) := by
  induction body generalizing depth rest with
  | text front h =>
    exact blockCommentRest_append (not_infix_append_singleton front.no_opening fun _ => h)
      (not_infix_append_singleton front.no_closing (by simp)) depth ('/' :: rest)
  | nested front h inner behind ihInner ihBehind =>
    have hopen : ¬ ['/', '*'] <:+: front.chars ++ ['/'] :=
      not_infix_append_singleton front.no_opening (by simp)
    have hclose : ¬ ['*', '/'] <:+: front.chars ++ ['/'] :=
      not_infix_append_singleton front.no_closing fun _ => h
    have hinner : blockCommentRest (depth + 1)
        ('*' :: '/' :: (behind.chars ++ '*' :: '/' :: rest)) =
        2 + (behind.chars.length + blockCommentRest depth ('*' :: '/' :: rest)) := by
      rw [blockCommentRest_cons_cons, if_neg (by simp), if_pos ⟨rfl, rfl⟩,
        if_neg (Nat.succ_ne_zero depth), Nat.add_sub_cancel, ihBehind]
    simp only [CommentBody.chars, List.append_assoc, List.cons_append]
    rw [blockCommentRest_append hopen hclose, blockCommentRest_cons_cons, if_pos ⟨rfl, rfl⟩,
      ihInner, hinner]
    simp only [List.length_append, List.length_cons]
    omega

/-! ### Elements -/

/-- Digits and underscores of which the first is a digit. -/
structure DigitRun where
  first : Char
  rest : List Char
  first_digit : isDecimalDigit first = true
  rest_digits : ∀ c ∈ rest, isDigitOrUnderscore c = true

/-- The characters of a run of digits. -/
def DigitRun.chars (d : DigitRun) : List Char := d.first :: d.rest

/-- An element of a Swift text that is a token of its own. -/
inductive Element
  /-- A comment up to the end of the line. -/
  | lineComment (body : List Char) (h : '\n' ∉ body)
  | blockComment (body : CommentBody)
  /-- A string on one line. -/
  | string (body : List StringUnit) (h : ∀ u ∈ body, u.IsInline)
  /-- A string between triple quotes. -/
  | multilineString (body : List StringUnit) (h : IsMultilineBody body)
    (hlast : body.getLast? ≠ some quote) (hescaped : .escaped '\n' ∉ body)
  | number (whole : DigitRun) (fraction : Option DigitRun)
  /-- An identifier or a keyword. -/
  | word (first : Char) (rest : List Char) (hfirst : isNameStart first = true)
    (hrest : ∀ c ∈ rest, isNameChar c = true)
  /-- A name between backticks. -/
  | quotedName (name : List Char) (hname : name ≠ []) (h : ∀ c ∈ name, isQuotedNameChar c = true)
  | directive (sign first : Char) (rest : List Char) (hsign : sign = '@' ∨ sign = '#')
    (hfirst : isNameStart first = true) (hrest : ∀ c ∈ rest, isWordChar c = true)

namespace Element

/-- The characters of an element. The newline that ends a line comment is no part of it. -/
def chars : Element → List Char
  | lineComment body _ => '/' :: '/' :: body
  | blockComment body => '/' :: '*' :: (body.chars ++ ['*', '/'])
  | string body _ => '"' :: (texts body ++ ['"'])
  | multilineString body _ _ _ => multilineLiteral body
  | number whole none => whole.chars
  | number whole (some fraction) => whole.chars ++ '.' :: fraction.chars
  | word first rest _ _ => first :: rest
  | quotedName name _ _ => '\x60' :: (name ++ ['\x60'])
  | directive sign first rest _ _ _ => sign :: first :: rest

/-- The kind of token that an element is. -/
def kind : Element → TokenKind
  | lineComment _ _ | blockComment _ => .comment
  | string _ _ | multilineString _ _ _ _ => .string
  | number _ _ => .number
  | word first rest _ _ => nameKind (first :: rest)
  | quotedName _ _ _ => .identifier
  | directive _ _ _ _ _ _ => .other

/-- The character may follow the element: a newline, or a blank unless the element goes on up to the
end of its line. -/
def EndsBefore : Element → Char → Prop
  | lineComment _ _, c => c = '\n'
  | _, c => c = ' ' ∨ c = '\n'

lemma EndsBefore.eq_or_eq {e : Element} (h : e.EndsBefore c) : c = ' ' ∨ c = '\n' := by
  cases e with
  | lineComment body hbody => exact .inr h
  | _ => exact h

end Element

/-! ### The lexemes that elements are read as -/

/-- A run of characters ends at the first one that does not go on with it. -/
lemma takeWhile_append_cons {p : Char → Bool} (h : ∀ d ∈ text, p d = true) (hc : p c = false)
    (rest : List Char) : (text ++ c :: rest).takeWhile p = text :=
  takeWhile_stretch h (by simpa using hc)

/-- Apart from comments and strings, what begins at a character is a number or a name. -/
lemma lexeme?_cons_of_ne (hslash : x ≠ '/') (hquote : x ≠ '"') (cs : List Char) :
    lexeme? (x :: cs) = ((number? (x :: cs)).map (.number, ·)
      <|> (quotedName? (x :: cs)).map (.identifier, ·)
      <|> (directive? (x :: cs)).map (.other, ·)
      <|> (name? (x :: cs)).map fun n => (nameKind ((x :: cs).take n), n)) := by
  have hline : lineComment? (x :: cs) = none := by
    cases cs <;> simp [lineComment?, hslash]
  have hblock : blockComment? (x :: cs) = none := by
    cases cs <;> simp [blockComment?, hslash]
  have hmultiline : multilineString? (x :: cs) = none := by simp [multilineString?_cons, hquote]
  have hstring : string? (x :: cs) = none := by simp [string?_cons, hquote]
  simp [lexeme?, hline, hblock, hmultiline, hstring]

/-- The first digits behind the ASCII digits come far behind the ASCII letters. -/
lemma isDecimalDigit_of_isNameStart (h : isNameStart x = true) : isDecimalDigit x = false := by
  have hbounds : 57 < x.toNat ∧ x.toNat < 1632 := by
    rcases Bool.or_eq_true_iff.mp h with hletter | hunderscore
    · rcases Bool.or_eq_true_iff.mp hletter with hupper | hlower
      · have hrange : 'A'.val ≤ x.val ∧ x.val ≤ 'Z'.val := of_decide_eq_true hupper
        exact ⟨Nat.lt_of_lt_of_le (by decide) hrange.1, Nat.lt_of_le_of_lt hrange.2 (by decide)⟩
      · have hrange := Bool.and_eq_true_iff.mp hlower
        exact ⟨Nat.lt_of_lt_of_le (by decide) (of_decide_eq_true hrange.1),
          Nat.lt_of_le_of_lt (of_decide_eq_true hrange.2) (by decide)⟩
    · obtain rfl := beq_iff_eq.mp hunderscore
      exact ⟨by decide, by decide⟩
  rw [isDecimalDigit, CharSet.containsChar, decimalDigits, CharSet.contains_cons_of_lt hbounds.1,
    CharSet.contains_cons_of_le (by omega), decide_eq_false_iff_not]
  omega

lemma digits?_chars (d : DigitRun) (hc : isDigitOrUnderscore c = false) (rest : List Char) :
    digits? (d.chars ++ c :: rest) = some d.chars.length := by
  rw [DigitRun.chars, List.cons_append, digits?, if_pos d.first_digit,
    takeWhile_append_cons d.rest_digits hc, List.length_cons, Nat.add_comm]

lemma digits?_of_isNameStart (h : isNameStart x = true) (cs : List Char) :
    digits? (x :: cs) = none := by
  simp [digits?, isDecimalDigit_of_isNameStart h]

/-- A number is read to its end, with its fraction if it has one. -/
lemma number?_chars (whole : DigitRun) (fraction : Option DigitRun)
    (hc : isDigitOrUnderscore c = false) (hpoint : c ≠ '.') (rest : List Char) :
    number? ((Element.number whole fraction).chars ++ c :: rest) =
      some (Element.number whole fraction).chars.length := by
  cases fraction with
  | none =>
    rw [Element.chars, number?, digits?_chars whole hc, Option.map_some, List.drop_left,
      fraction_cons, if_neg hpoint, Nat.add_zero]
  | some d =>
    have hfraction : fraction ('.' :: (d.chars ++ c :: rest)) = 1 + d.chars.length := by
      rw [fraction_cons, if_pos rfl, digits?_chars d hc]
      rfl
    rw [Element.chars, List.append_assoc, List.cons_append, number?,
      digits?_chars whole (by decide), Option.map_some, List.drop_left, hfraction]
    simp only [List.length_append, List.length_cons]
    congr 1
    omega

lemma lexeme?_number (whole : DigitRun) (fraction : Option DigitRun)
    (hc : isDigitOrUnderscore c = false) (hpoint : c ≠ '.') (rest : List Char) :
    lexeme? ((Element.number whole fraction).chars ++ c :: rest) =
      some (.number, (Element.number whole fraction).chars.length) := by
  have hread := number?_chars whole fraction hc hpoint rest
  obtain ⟨tail, htail⟩ : ∃ tail,
      (Element.number whole fraction).chars ++ c :: rest = whole.first :: tail := by
    cases fraction <;> exact ⟨_, rfl⟩
  have hfirst : ∀ y, isDecimalDigit y = false → whole.first ≠ y := by
    rintro y hy rfl
    rw [whole.first_digit] at hy
    cases hy
  rw [htail] at hread ⊢
  rw [lexeme?_cons_of_ne (hfirst '/' (by decide)) (hfirst '"' (by decide)), hread]
  rfl

lemma lexeme?_word {first : Char} {tail : List Char} (hfirst : isNameStart first = true)
    (htail : ∀ d ∈ tail, isNameChar d = true) (hc : isNameChar c = false) (rest : List Char) :
    lexeme? (first :: tail ++ c :: rest) = some (nameKind (first :: tail), tail.length + 1) := by
  have hne : ∀ y, isNameStart y = false → first ≠ y := by
    rintro y hy rfl
    rw [hfirst] at hy
    cases hy
  have hnumber : number? (first :: (tail ++ c :: rest)) = none := by
    rw [number?, digits?_of_isNameStart hfirst, Option.map_none]
  have hquoted : quotedName? (first :: (tail ++ c :: rest)) = none := by
    rw [quotedName?_cons, if_neg fun h => hne '\x60' (by decide) h.1]
  have hdirective : directive? (first :: (tail ++ c :: rest)) = none := by
    rw [directive?_cons, if_neg fun h => h.1.elim (hne '@' (by decide)) (hne '#' (by decide))]
  have hname : name? (first :: (tail ++ c :: rest)) = some (tail.length + 1) := by
    rw [name?, if_pos hfirst, takeWhile_append_cons htail hc, Nat.add_comm]
  rw [List.cons_append, lexeme?_cons_of_ne (hne '/' (by decide)) (hne '"' (by decide)), hnumber,
    hquoted, hdirective, hname]
  simp

lemma lexeme?_quotedName {name : List Char} (hname : name ≠ [])
    (h : ∀ d ∈ name, isQuotedNameChar d = true) (rest : List Char) :
    lexeme? ('\x60' :: (name ++ '\x60' :: rest)) = some (.identifier, name.length + 2) := by
  have htake : (name ++ '\x60' :: rest).takeWhile isQuotedNameChar = name :=
    takeWhile_append_cons h rfl rest
  have hcloses : ClosesName (name ++ '\x60' :: rest) := by
    rw [ClosesName, List.dropWhile_append_of_pos h]
    rfl
  rw [lexeme?_backtick, quotedName?_cons, htake, if_pos ⟨rfl, hname, hcloses⟩]
  rfl

lemma lexeme?_directive {sign first : Char} {tail : List Char} (hsign : sign = '@' ∨ sign = '#')
    (hfirst : isNameStart first = true) (htail : ∀ d ∈ tail, isWordChar d = true)
    (hc : isWordChar c = false) (rest : List Char) :
    lexeme? (sign :: first :: (tail ++ c :: rest)) = some (.other, tail.length + 2) := by
  have hdigit : isDecimalDigit sign = false := by rcases hsign with rfl | rfl <;> decide
  have hne : sign ≠ '/' ∧ sign ≠ '"' ∧ sign ≠ '\x60' := by rcases hsign with rfl | rfl <;> decide
  have hdirective : directive? (sign :: first :: (tail ++ c :: rest)) = some (2 + tail.length) := by
    rw [directive?, if_pos ⟨hsign, hfirst⟩, takeWhile_append_cons htail hc]
  have hnumber : number? (sign :: first :: (tail ++ c :: rest)) = none := by
    simp [number?, digits?, hdigit]
  have hquoted : quotedName? (sign :: first :: (tail ++ c :: rest)) = none := by
    rw [quotedName?_cons, if_neg fun h => hne.2.2 h.1]
  rw [lexeme?_cons_of_ne hne.1 hne.2.1, hnumber, hquoted, hdirective, Nat.add_comm]
  rfl

lemma lexeme?_lineComment {body : List Char} (h : '\n' ∉ body)
    (hrest : ∀ d ∈ rest.head?, d = '\n') :
    lexeme? ('/' :: '/' :: (body ++ rest)) = some (.comment, body.length + 2) := by
  have hbody : (body ++ rest).takeWhile (fun d => decide (d ≠ '\n')) = body :=
    takeWhile_stretch (fun d hd => decide_eq_true (ne_of_mem_of_not_mem hd h))
      fun d hd => by simp [hrest d hd]
  simp only [lexeme?, lineComment?, hbody, Nat.add_comm]
  rfl

lemma lexeme?_blockComment (body : CommentBody) (rest : List Char) :
    lexeme? ('/' :: '*' :: (body.chars ++ '*' :: '/' :: rest)) =
      some (.comment, body.chars.length + 4) := by
  have hline : lineComment? ('/' :: '*' :: (body.chars ++ '*' :: '/' :: rest)) = none := by
    simp [lineComment?_cons_cons]
  have hclose : blockCommentRest 0 ('*' :: '/' :: rest) = 2 := by
    rw [blockCommentRest_cons_cons, if_neg (by simp), if_pos ⟨rfl, rfl⟩, if_pos rfl]
  have hblock : blockComment? ('/' :: '*' :: (body.chars ++ '*' :: '/' :: rest)) =
      some (body.chars.length + 4) := by
    rw [blockComment?, blockCommentRest_chars, hclose, Nat.add_comm]
  simp only [lexeme?, hline, hblock]
  rfl

/-- An element is read as a token of its kind up to its end. -/
theorem Element.lexeme?_chars (e : Element) (hc : e.EndsBefore c) (rest : List Char) :
    lexeme? (e.chars ++ c :: rest) = some (e.kind, e.chars.length) := by
  have hblank : ∀ {p : Char → Bool}, p ' ' = false → p '\n' = false → p c = false := by
    intro p hspace hline
    rcases hc.eq_or_eq with rfl | rfl
    · exact hspace
    · exact hline
  have hmark : c ≠ '"' ∧ c ≠ '.' := by rcases hc.eq_or_eq with rfl | rfl <;> decide
  cases e with
  | lineComment body h =>
    obtain rfl : c = '\n' := hc
    exact lexeme?_lineComment h (by simp)
  | blockComment body =>
    have hread := lexeme?_blockComment body (c :: rest)
    simpa [chars, kind] using hread
  | string body h =>
    have hread := lexeme?_string h (c :: rest) (by simp [hmark.1])
    simpa [chars, kind] using hread
  | multilineString body h hlast hescaped =>
    exact lexeme?_multilineLiteral h hlast hescaped (c :: rest)
  | number whole fraction =>
    exact lexeme?_number whole fraction (hblank (by decide) (by decide)) hmark.2 rest
  | word first tail hfirst htail =>
    exact lexeme?_word hfirst htail (hblank (by decide) (by decide)) rest
  | quotedName name hname h =>
    have hread := lexeme?_quotedName hname h (c :: rest)
    simpa [chars, kind] using hread
  | directive sign first tail hsign hfirst htail =>
    exact lexeme?_directive hsign hfirst htail (hblank (by decide) (by decide)) rest

end ParenLint.Swift
