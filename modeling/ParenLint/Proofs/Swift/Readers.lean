import Mathlib.Tactic.Lemma
import Mathlib.Tactic.SplitIfs
import ParenLint.Swift.Lexeme
import ParenLint.Text.Blank

/-!
# The readers of lexemes

For each form of lexeme, how its reader takes a text apart, and that what it reads is neither empty
nor longer than the text. The first two characters and, for a name between backticks, its closing
decide whether there is a lexeme at all.
-/

namespace ParenLint.Swift

open ParenLint.Text

variable {cs : List Char} {kind : TokenKind} {n : Nat}

/-! ### Steps of the readers -/

lemma lineComment?_cons_cons (x y : Char) (cs : List Char) :
    lineComment? (x :: y :: cs) =
      if x = '/' ∧ y = '/' then some (2 + (cs.takeWhile (· ≠ '\n')).length) else none := by
  unfold lineComment?
  split <;> simp_all

lemma blockCommentRest_cons_cons (depth : Nat) (x y : Char) (cs : List Char) :
    blockCommentRest depth (x :: y :: cs) =
      if x = '/' ∧ y = '*' then 2 + blockCommentRest (depth + 1) cs
      else if x = '*' ∧ y = '/' then
        if depth = 0 then 2 else 2 + blockCommentRest (depth - 1) cs
      else 1 + blockCommentRest depth (y :: cs) := by
  by_cases hopen : x = '/' ∧ y = '*'
  · obtain ⟨rfl, rfl⟩ := hopen
    simp [blockCommentRest]
  · by_cases hclose : x = '*' ∧ y = '/'
    · obtain ⟨rfl, rfl⟩ := hclose
      cases depth <;> simp [blockCommentRest]
    · rw [if_neg hopen, if_neg hclose, blockCommentRest]
      all_goals
        intros
        simp_all

lemma blockComment?_cons_cons (x y : Char) (cs : List Char) :
    blockComment? (x :: y :: cs) =
      if x = '/' ∧ y = '*' then some (2 + blockCommentRest 0 cs) else none := by
  unfold blockComment?
  split <;> simp_all

/-- Two quotes at the front of a text are its first two characters. -/
lemma exists_of_take_two_quotes (h : cs.take 2 = ['"', '"']) : ∃ rest, cs = '"' :: '"' :: rest := by
  rw [← List.take_append_drop 2 cs, h]
  exact ⟨_, rfl⟩

lemma multilineStringRest?_escape (y : Char) (cs : List Char) :
    multilineStringRest? ('\\' :: y :: cs) =
      if y = '\n' then none else (multilineStringRest? cs).map (2 + ·) := by
  rw [multilineStringRest?]

lemma multilineStringRest?_cons {x : Char} (hx : x ≠ '\\') (cs : List Char) :
    multilineStringRest? (x :: cs) =
      if x = '"' ∧ cs.take 2 = ['"', '"'] then some 3
      else (multilineStringRest? cs).map (1 + ·) := by
  split_ifs with hquotes
  · obtain ⟨rfl, htake⟩ := hquotes
    obtain ⟨rest, rfl⟩ := exists_of_take_two_quotes htake
    rw [multilineStringRest?]
  · rw [multilineStringRest?]
    all_goals
      intros
      simp_all

lemma multilineString?_cons (x : Char) (cs : List Char) :
    multilineString? (x :: cs) =
      if x = '"' ∧ cs.take 2 = ['"', '"'] then (multilineStringRest? (cs.drop 2)).map (3 + ·)
      else none := by
  split_ifs with hquotes
  · obtain ⟨rfl, htake⟩ := hquotes
    obtain ⟨rest, rfl⟩ := exists_of_take_two_quotes htake
    rfl
  · unfold multilineString?
    split <;> simp_all

lemma stringRest_escape (y : Char) (cs : List Char) :
    stringRest ('\\' :: y :: cs) = if y = '\n' then 0 else 2 + stringRest cs := by
  rw [stringRest]

lemma stringRest_cons {x : Char} (hx : x ≠ '\\') (cs : List Char) :
    stringRest (x :: cs) = if x = '"' then 1 else if x = '\n' then 0 else 1 + stringRest cs := by
  split_ifs with hquote hnewline
  · rw [hquote, stringRest]
  · rw [hnewline, stringRest]
  · rw [stringRest]
    all_goals
      intros
      simp_all

lemma string?_cons (x : Char) (cs : List Char) :
    string? (x :: cs) = if x = '"' then some (1 + stringRest cs) else none := by
  unfold string?
  split <;> simp_all

lemma fraction_cons (x : Char) (cs : List Char) :
    fraction (x :: cs) = if x = '.' then ((digits? cs).map (1 + ·)).getD 0 else 0 := by
  split_ifs with hx
  · subst hx
    rw [fraction]
    cases digits? cs <;> rfl
  · rw [fraction]
    exact fun rest heq => hx (List.cons.inj heq).1

/-- The characters of a name between backticks. -/
def isQuotedNameChar (c : Char) : Bool := c ≠ '\x60' ∧ c ≠ '\n'

/-- Whether a name between backticks that has begun before the text is closed in it. -/
def ClosesName (cs : List Char) : Prop := (cs.dropWhile isQuotedNameChar).head? = some '\x60'

instance (cs : List Char) : Decidable (ClosesName cs) := inferInstanceAs (Decidable (_ = _))

lemma drop_length_takeWhile (p : Char → Bool) (cs : List Char) :
    cs.drop (cs.takeWhile p).length = cs.dropWhile p := by
  induction cs with
  | nil => rfl
  | cons x cs ih => cases hx : p x <;> simp [hx, ih]

lemma quotedName?_cons (x : Char) (cs : List Char) :
    quotedName? (x :: cs) =
      if x = '\x60' ∧ cs.takeWhile isQuotedNameChar ≠ [] ∧ ClosesName cs then
        some ((cs.takeWhile isQuotedNameChar).length + 2)
      else none := by
  have hdrop : cs.drop (cs.takeWhile isQuotedNameChar).length =
      cs.dropWhile isQuotedNameChar := drop_length_takeWhile _ cs
  split_ifs with hcond
  · obtain ⟨rfl, hne, hcloses⟩ := hcond
    obtain ⟨y, name, hname⟩ := List.exists_cons_of_ne_nil hne
    obtain ⟨tail, htail⟩ := List.head?_eq_some_iff.mp hcloses
    have hchar : (fun c => decide (c ≠ '\x60' ∧ c ≠ '\n')) = isQuotedNameChar := rfl
    rw [hname, htail] at hdrop
    simp only [quotedName?, hchar, hname, hdrop]
  · unfold quotedName?
    split
    · next rest heq =>
      obtain ⟨rfl, rfl⟩ := List.cons.inj heq
      dsimp only
      split
      · next y name tail hname hrest =>
        have hne : cs.takeWhile isQuotedNameChar ≠ [] := fun hnil =>
          List.cons_ne_nil y name (hname.symm.trans hnil)
        exact absurd ⟨rfl, hne, congrArg List.head? (hdrop.symm.trans hrest)⟩ hcond
      · rfl
    · rfl

lemma directive?_cons (x : Char) (cs : List Char) :
    directive? (x :: cs) =
      if (x = '@' ∨ x = '#') ∧ cs.head?.any isNameStart then
        some (2 + ((cs.drop 1).takeWhile isWordChar).length)
      else none := by
  cases cs with
  | nil => simp [directive?]
  | cons y cs => simp [directive?]

/-! ### Where a lexeme begins -/

/-- The first character and what follows it begin a lexeme. -/
def BeginsLexeme (x : Char) (cs : List Char) : Prop :=
  (x = '/' ∧ (cs.head? = some '/' ∨ cs.head? = some '*')) ∨ x = '"' ∨ isDecimalDigit x = true ∨
    (x = '\x60' ∧ cs.takeWhile isQuotedNameChar ≠ [] ∧ ClosesName cs) ∨
    ((x = '@' ∨ x = '#') ∧ cs.head?.any isNameStart = true) ∨ isNameStart x = true

lemma isSome_lexeme?_cons (x : Char) (cs : List Char) :
    (lexeme? (x :: cs)).isSome = true ↔ BeginsLexeme x cs := by
  have hcomment : (lineComment? (x :: cs)).isSome = true ∨ (blockComment? (x :: cs)).isSome = true ↔
      x = '/' ∧ (cs.head? = some '/' ∨ cs.head? = some '*') := by
    cases cs with
    | nil => simp [lineComment?, blockComment?]
    | cons y cs =>
      rw [lineComment?_cons_cons, blockComment?_cons_cons]
      split_ifs <;> simp_all
  have hstring : (multilineString? (x :: cs)).isSome = true ∨ (string? (x :: cs)).isSome = true ↔
      x = '"' := by
    rw [multilineString?_cons, string?_cons]
    split_ifs <;> simp_all
  have hnumber : (number? (x :: cs)).isSome = true ↔ isDecimalDigit x = true := by
    rw [number?, Option.isSome_map, digits?]
    split_ifs <;> simp_all
  have hquoted : (quotedName? (x :: cs)).isSome = true ↔
      x = '\x60' ∧ cs.takeWhile isQuotedNameChar ≠ [] ∧ ClosesName cs := by
    rw [quotedName?_cons]
    split_ifs <;> simp_all
  have hdirective : (directive? (x :: cs)).isSome = true ↔
      (x = '@' ∨ x = '#') ∧ cs.head?.any isNameStart = true := by
    rw [directive?_cons]
    split_ifs <;> simp_all
  have hname : (name? (x :: cs)).isSome = true ↔ isNameStart x = true := by
    rw [name?]
    split_ifs <;> simp_all
  simp only [lexeme?, Option.orElse_eq_orElse, Option.orElse_eq_or, Option.isSome_or,
    Option.isSome_map, Bool.or_eq_true]
  rw [← or_assoc, hcomment, ← or_assoc (a := (multilineString? (x :: cs)).isSome = true), hstring,
    hnumber, hquoted, hdirective, hname, BeginsLexeme]

/-- A character that begins no lexeme, whatever follows it. -/
def IsInert (c : Char) : Prop :=
  c ∉ ['/', '"', '\x60', '@', '#'] ∧ isDecimalDigit c = false ∧ isNameStart c = false

instance (c : Char) : Decidable (IsInert c) := inferInstanceAs (Decidable (_ ∧ _ ∧ _))

lemma lexeme?_of_isInert {x : Char} (hx : IsInert x) (cs : List Char) :
    lexeme? (x :: cs) = none := by
  obtain ⟨hne, hdigit, hname⟩ := hx
  simp only [List.mem_cons, List.not_mem_nil, or_false, not_or] at hne
  rw [← Option.not_isSome_iff_eq_none, isSome_lexeme?_cons, BeginsLexeme]
  simp [hne, hdigit, hname]

/-- What holds of the few blank code points holds of every blank. -/
lemma of_isBlank {p : Char → Prop}
    (h : ∀ r ∈ blanks, ∀ k ≤ r.2 - r.1, p (Char.ofNat (r.1 + k))) {c : Char}
    (hc : isBlank c = true) : p c := by
  obtain ⟨r, hr, hlo, hhi⟩ := CharSet.exists_range_of_contains hc
  have hp := h r hr (c.toNat - r.1) (Nat.sub_le_sub_right hhi r.1)
  rwa [Nat.add_sub_cancel' hlo, Char.ofNat_toNat] at hp

lemma isInert_of_isBlank {c : Char} (hc : isBlank c = true) : IsInert c :=
  of_isBlank (by decide +kernel) hc

lemma isNameChar_of_isBlank {c : Char} (hc : isBlank c = true) : isNameChar c = false :=
  of_isBlank (p := fun c => isNameChar c = false) (by decide +kernel) hc

/-- A name does not go on over blanks and a parenthesis. -/
lemma exists_cons_of_blanks {gap : List Char} (h : ∀ c ∈ gap, isBlank c = true)
    (rest : List Char) : ∃ c cs, gap ++ '(' :: rest = c :: cs ∧ isNameChar c = false := by
  cases gap with
  | nil => exact ⟨'(', rest, rfl, rfl⟩
  | cons c gap => exact ⟨c, gap ++ '(' :: rest, rfl, isNameChar_of_isBlank (h c (by simp))⟩

lemma lexeme?_backtick (cs : List Char) :
    lexeme? ('\x60' :: cs) = (quotedName? ('\x60' :: cs)).map (.identifier, ·) := by
  have hdigit : isDecimalDigit '\x60' = false := rfl
  have hname : isNameStart '\x60' = false := rfl
  have hdirective : directive? ('\x60' :: cs) = none := by simp [directive?_cons]
  simp [lexeme?, lineComment?, blockComment?, multilineString?, string?, number?, digits?, hdigit,
    hdirective, name?, hname]

/-- A keyword is a name. -/
lemma name?_of_lexeme?_keyword (h : lexeme? cs = some (.keyword, n)) :
    name? cs = some n ∧ isKeyword (cs.take n) = true := by
  simp only [lexeme?, Option.orElse_eq_orElse, Option.orElse_eq_or, Option.or_eq_some_iff,
    Option.map_eq_some_iff, Prod.mk.injEq, reduceCtorEq, false_and, and_false, exists_false,
    false_or] at h
  obtain ⟨-, -, -, -, -, -, -, k, hname, hkind, rfl⟩ := h
  cases hword : isKeyword (cs.take k) with
  | true => exact ⟨hname, rfl⟩
  | false => simp [nameKind, hword] at hkind

/-- A name takes all the characters of names that the text begins with. -/
lemma take_of_name? (h : name? cs = some n) : cs.take n = cs.takeWhile isNameChar := by
  cases cs with
  | nil => cases h
  | cons x cs =>
    rw [name?, Option.ite_none_right_eq_some, Option.some.injEq] at h
    obtain ⟨hx, rfl⟩ := h
    have hx : isNameChar x = true := by
      simp only [isNameStart, isNameChar, Char.isAlphanum, Bool.or_eq_true] at hx ⊢
      exact hx.imp_left .inl
    have htake : cs.take (cs.takeWhile isNameChar).length = cs.takeWhile isNameChar :=
      (List.prefix_iff_eq_take.mp (List.takeWhile_prefix isNameChar)).symm
    rw [Nat.add_comm, List.take_succ_cons, htake, List.takeWhile_cons_of_pos hx]

/-- The word `if` is a keyword where the name ends behind it. -/
lemma lexeme?_if {c : Char} (hc : isNameChar c = false) (cs : List Char) :
    lexeme? ("if".toList ++ c :: cs) = some (.keyword, 2) := by
  have hdigit : isDecimalDigit 'i' = false := rfl
  have hi : isNameStart 'i' = true := rfl
  have hf : isNameChar 'f' = true := rfl
  have hkind : nameKind ['i', 'f'] = .keyword := rfl
  change lexeme? ('i' :: 'f' :: c :: cs) = _
  simp [lexeme?, lineComment?_cons_cons, blockComment?_cons_cons, multilineString?_cons,
    string?_cons, number?, digits?, hdigit, quotedName?_cons, directive?_cons, name?, hi, hf, hc,
    hkind]

/-- A keyword that reaches into a word where the name ends behind it is that word, with what stands
before it. -/
lemma take_of_lexeme?_keyword {front word rest : List Char} {c : Char}
    (hword : ∀ d ∈ word, isNameChar d = true) (hc : isNameChar c = false)
    (h : lexeme? (front ++ (word ++ c :: rest)) = some (.keyword, n)) (hlt : front.length < n) :
    (front ++ (word ++ c :: rest)).take n = front ++ word ∧ isKeyword (front ++ word) = true := by
  obtain ⟨hname, hkeyword⟩ := name?_of_lexeme?_keyword h
  have htake := take_of_name? hname
  -- What stands before the word belongs to the name, so the name goes on to the end of the word.
  have hfront : ∀ d ∈ front, isNameChar d = true := by
    intro d hd
    have hmem : d ∈ (front ++ (word ++ c :: rest)).take n := by
      rw [List.take_append, List.take_of_length_le (Nat.le_of_lt hlt)]
      exact List.mem_append_left _ hd
    rw [htake] at hmem
    exact List.all_eq_true.mp List.all_takeWhile d hmem
  have hwhole : (front ++ (word ++ c :: rest)).take n = front ++ word := by
    rw [htake, List.takeWhile_append_of_pos hfront, List.takeWhile_append_of_pos hword,
      List.takeWhile_cons_of_neg (by simp [hc]), List.append_nil]
  exact ⟨hwhole, hwhole ▸ hkeyword⟩

/-! ### The lengths of lexemes -/

lemma length_takeWhile_le (p : Char → Bool) (cs : List Char) :
    (cs.takeWhile p).length ≤ cs.length :=
  (List.takeWhile_prefix p).length_le

lemma blockCommentRest_le (depth : Nat) (cs : List Char) :
    blockCommentRest depth cs ≤ cs.length := by
  fun_induction blockCommentRest depth cs <;>
    simp only [List.length_cons, List.length_nil] <;> omega

lemma multilineStringRest?_le (h : multilineStringRest? cs = some n) : n ≤ cs.length := by
  fun_induction multilineStringRest? cs generalizing n with
  | case1 => cases h
  | case2 rest =>
    obtain rfl := Option.some.inj h
    simp only [List.length_cons]
    omega
  | case3 => cases h
  | case4 => cases h
  | case5 c rest hc ih =>
    obtain ⟨k, hk, rfl⟩ := Option.map_eq_some_iff.mp h
    have hle := ih hk
    simp only [List.length_cons]
    omega
  | case6 c rest _ _ _ ih =>
    obtain ⟨k, hk, rfl⟩ := Option.map_eq_some_iff.mp h
    have hle := ih hk
    simp only [List.length_cons]
    omega

lemma stringRest_le (cs : List Char) : stringRest cs ≤ cs.length := by
  fun_induction stringRest cs <;> simp only [List.length_cons, List.length_nil] <;> omega

lemma digits?_bounds (h : digits? cs = some n) : 0 < n ∧ n ≤ cs.length := by
  cases cs with
  | nil => cases h
  | cons c rest =>
    simp only [digits?, Option.ite_none_right_eq_some, Option.some.injEq] at h
    have hle := length_takeWhile_le isDigitOrUnderscore rest
    simp only [List.length_cons]
    omega

lemma fraction_le (cs : List Char) : fraction cs ≤ cs.length := by
  cases cs with
  | nil => exact Nat.zero_le _
  | cons c rest =>
    rw [fraction_cons]
    split_ifs
    · cases hdigits : digits? rest with
      | none => exact Nat.zero_le _
      | some n =>
        have hle := (digits?_bounds hdigits).2
        simp only [Option.map_some, Option.getD_some, List.length_cons]
        omega
    · exact Nat.zero_le _

lemma lineComment?_bounds (h : lineComment? cs = some n) : 0 < n ∧ n ≤ cs.length := by
  match cs with
  | [] => cases h
  | [x] => simp [lineComment?] at h
  | x :: y :: rest =>
    rw [lineComment?_cons_cons, Option.ite_none_right_eq_some, Option.some.injEq] at h
    have hle := length_takeWhile_le (· ≠ '\n') rest
    simp only [List.length_cons]
    omega

lemma blockComment?_bounds (h : blockComment? cs = some n) : 0 < n ∧ n ≤ cs.length := by
  match cs with
  | [] => cases h
  | [x] => simp [blockComment?] at h
  | x :: y :: rest =>
    rw [blockComment?_cons_cons, Option.ite_none_right_eq_some, Option.some.injEq] at h
    have hle := blockCommentRest_le 0 rest
    simp only [List.length_cons]
    omega

lemma multilineString?_bounds (h : multilineString? cs = some n) : 0 < n ∧ n ≤ cs.length := by
  cases cs with
  | nil => cases h
  | cons x cs =>
    rw [multilineString?_cons, Option.ite_none_right_eq_some, Option.map_eq_some_iff] at h
    obtain ⟨⟨-, htake⟩, k, hk, rfl⟩ := h
    obtain ⟨rest, rfl⟩ := exists_of_take_two_quotes htake
    have hle : k ≤ rest.length := multilineStringRest?_le hk
    simp only [List.length_cons]
    omega

lemma string?_bounds (h : string? cs = some n) : 0 < n ∧ n ≤ cs.length := by
  cases cs with
  | nil => cases h
  | cons x cs =>
    rw [string?_cons, Option.ite_none_right_eq_some, Option.some.injEq] at h
    have hle := stringRest_le cs
    rw [List.length_cons]
    omega

lemma number?_bounds (h : number? cs = some n) : 0 < n ∧ n ≤ cs.length := by
  obtain ⟨k, hk, rfl⟩ := Option.map_eq_some_iff.mp h
  have hbounds := digits?_bounds hk
  have hle := fraction_le (cs.drop k)
  rw [List.length_drop] at hle
  omega

lemma quotedName?_bounds (h : quotedName? cs = some n) : 0 < n ∧ n ≤ cs.length := by
  cases cs with
  | nil => cases h
  | cons x cs =>
    rw [quotedName?_cons, Option.ite_none_right_eq_some, Option.some.injEq] at h
    obtain ⟨⟨-, -, hcloses⟩, rfl⟩ := h
    have hsplit := congrArg List.length
      (List.takeWhile_append_dropWhile (p := isQuotedNameChar) (l := cs))
    have hpos : 0 < (cs.dropWhile isQuotedNameChar).length := by
      cases hdrop : cs.dropWhile isQuotedNameChar with
      | nil => simp [ClosesName, hdrop] at hcloses
      | cons y ys => exact Nat.succ_pos _
    rw [List.length_append] at hsplit
    rw [List.length_cons]
    omega

lemma directive?_bounds (h : directive? cs = some n) : 0 < n ∧ n ≤ cs.length := by
  match cs with
  | [] => cases h
  | [x] => simp [directive?] at h
  | x :: y :: rest =>
    rw [directive?, Option.ite_none_right_eq_some, Option.some.injEq] at h
    have hle := length_takeWhile_le isWordChar rest
    simp only [List.length_cons]
    omega

lemma name?_bounds (h : name? cs = some n) : 0 < n ∧ n ≤ cs.length := by
  cases cs with
  | nil => cases h
  | cons x cs =>
    rw [name?, Option.ite_none_right_eq_some, Option.some.injEq] at h
    have hle := length_takeWhile_le isNameChar cs
    rw [List.length_cons]
    omega

/-- A lexeme is not empty and not longer than the text that it begins. -/
theorem lexeme?_bounds (h : lexeme? cs = some (kind, n)) : 0 < n ∧ n ≤ cs.length := by
  simp only [lexeme?, Option.orElse_eq_orElse, Option.orElse_eq_or, Option.or_eq_some_iff,
    Option.map_eq_some_iff, Prod.mk.injEq] at h
  obtain ⟨_, h, -, rfl⟩ | ⟨-, ⟨_, h, -, rfl⟩ | ⟨-, ⟨_, h, -, rfl⟩ | ⟨-, ⟨_, h, -, rfl⟩ |
    ⟨-, ⟨_, h, -, rfl⟩ | ⟨-, ⟨_, h, -, rfl⟩ | ⟨-, ⟨_, h, -, rfl⟩ | ⟨-, _, h, -, rfl⟩⟩⟩⟩⟩⟩⟩ := h
  · exact lineComment?_bounds h
  · exact blockComment?_bounds h
  · exact multilineString?_bounds h
  · exact string?_bounds h
  · exact number?_bounds h
  · exact quotedName?_bounds h
  · exact directive?_bounds h
  · exact name?_bounds h

end ParenLint.Swift
