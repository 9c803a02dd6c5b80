import Mathlib.Data.List.Induction
import ParenLint.Proofs.Swift.Scan

/-!
# What a lexeme depends on

A lexeme that ends inside the front of a text does not depend on what follows the front, as long as
the first characters behind the front are alike. Three forms look further ahead: a string between
triple quotes and a name between backticks are only read if they are closed, and where they are not,
closing them must not become possible.
-/

namespace ParenLint.Swift

open ParenLint.Text

/-! ### Results that agree within the front -/

section Within

variable {α β : Type} {size : α → Nat} {size' : β → Nat} {k : Nat} {r r' s s' : Option α}

/-- The second result is the first one, unless the first reaches beyond `k` characters. -/
def SameWithin (size : α → Nat) (k : Nat) (r r' : Option α) : Prop :=
  r' = r ∨ ∃ a, r = some a ∧ k < size a

lemma SameWithin.orElse (h : SameWithin size k r r') (h' : SameWithin size k s s') :
    SameWithin size k (r <|> s) (r' <|> s') := by
  rcases h with rfl | ⟨a, rfl, ha⟩
  · cases r' with
    | none => simpa using h'
    | some a => exact .inl rfl
  · exact .inr ⟨a, rfl, ha⟩

lemma SameWithin.map (h : SameWithin size k r r') {f f' : α → β}
    (hsize : ∀ a, size' (f a) = size a) (hf : ∀ a, r = some a → size a ≤ k → f' a = f a) :
    SameWithin size' k (r.map f) (r'.map f') := by
  rcases h with rfl | ⟨a, rfl, ha⟩
  · cases r' with
    | none => exact .inl rfl
    | some a =>
      by_cases hle : size a ≤ k
      · exact .inl (congrArg some (hf a rfl hle))
      · exact .inr ⟨f a, rfl, by rw [hsize]; omega⟩
  · exact .inr ⟨f a, rfl, by rw [hsize]; exact ha⟩

/-- A reader that has passed over `j` characters goes on with a result of another one. -/
lemma SameWithin.map_add {r r' : Option Nat} (h : SameWithin id k r r') (j : Nat) :
    SameWithin id (k + j) (r.map (j + ·)) (r'.map (j + ·)) := by
  rcases h with rfl | ⟨n, rfl, hn⟩
  · exact .inl rfl
  · refine .inr ⟨j + n, rfl, ?_⟩
    rw [Nat.add_comm k]
    exact Nat.add_lt_add_left hn j

lemma SameWithin.some_add {n n' : Nat} (h : n' = n ∨ k < n) (j : Nat) :
    SameWithin id (k + j) (some (j + n)) (some (j + n')) := by
  have hsome : SameWithin id k (some n) (some n') :=
    h.imp (congrArg some) fun hlt => ⟨n, rfl, hlt⟩
  exact hsome.map_add j

end Within

/-! ### Characters that end a lexeme alike -/

/-- The characters other than digits that a reader looks for behind the first one. -/
def delimiters : List Char := ['/', '*', '"', '\\', '\n', '\x60', '.']

/-- The character is no part of what a reader looks for behind a lexeme. -/
def IsPlain (c : Char) : Prop := c ∉ delimiters ∧ isDigitOrUnderscore c = false

lemma IsPlain.ne {c x : Char} (h : IsPlain c) (hx : x ∈ delimiters) : c ≠ x := fun heq =>
  h.1 (heq ▸ hx)

instance (c : Char) : Decidable (IsPlain c) := inferInstanceAs (Decidable (_ ∧ _))

/-- Plain characters that go on with a name in the same cases. -/
structure Alike (c d : Char) : Prop where
  plain : IsPlain c
  plain' : IsPlain d
  nameStart_eq : isNameStart d = isNameStart c
  nameChar_eq : isNameChar d = isNameChar c
  wordChar_eq : isWordChar d = isWordChar c

lemma alike_letter : Alike 'i' 'i' := by
  refine ⟨?_, ?_, rfl, rfl, rfl⟩ <;> decide +kernel

lemma alike_parenthesis : Alike ')' ' ' := by
  refine ⟨?_, ?_, ?_, ?_, ?_⟩ <;> decide +kernel

variable {c d : Char}

/-- The length of a run is the same, unless the run reaches beyond the front. -/
lemma length_takeWhile_alike {p : Char → Bool} (h : p d = p c) (tail tail' front : List Char) :
    ((front ++ d :: tail').takeWhile p).length = ((front ++ c :: tail).takeWhile p).length ∨
      front.length < ((front ++ c :: tail).takeWhile p).length := by
  induction front with
  | nil =>
    cases hc : p c with
    | true => exact .inr (by simp [hc])
    | false => exact .inl (by simp [hc, h.trans hc])
  | cons x front ih =>
    cases hx : p x with
    | true =>
      simp only [List.cons_append, List.takeWhile_cons, hx, if_true, List.length_cons]
      omega
    | false => exact .inl (by simp [hx])

/-! ### Comments -/

lemma lineComment?_within (h : Alike c d) (tail tail' : List Char) (x : Char) (front : List Char) :
    SameWithin id (x :: front).length (lineComment? (x :: front ++ c :: tail))
      (lineComment? (x :: front ++ d :: tail')) := by
  cases front with
  | nil =>
    have hc : c ≠ '/' := h.plain.ne (by decide)
    have hd : d ≠ '/' := h.plain'.ne (by decide)
    exact .inl (by simp [lineComment?_cons_cons, hc, hd])
  | cons y front =>
    simp only [List.cons_append, lineComment?_cons_cons]
    split_ifs
    · have hc : c ≠ '\n' := h.plain.ne (by decide)
      have hd : d ≠ '\n' := h.plain'.ne (by decide)
      have hline : decide (d ≠ '\n') = decide (c ≠ '\n') := by simp [hc, hd]
      exact .some_add (length_takeWhile_alike hline tail tail' front) 2
    · exact .inl rfl

lemma blockCommentRest_within (h : Alike c d) (tail tail' : List Char) (depth : Nat)
    (front : List Char) :
    blockCommentRest depth (front ++ d :: tail') = blockCommentRest depth (front ++ c :: tail) ∨
      front.length < blockCommentRest depth (front ++ c :: tail) := by
  have hpos : ∀ depth, 0 < blockCommentRest depth (c :: tail) := by
    intro depth
    have hslash : c ≠ '/' := h.plain.ne (by decide)
    have hstar : c ≠ '*' := h.plain.ne (by decide)
    cases tail with
    | nil => simp [blockCommentRest]
    | cons y tail =>
      rw [blockCommentRest_cons_cons, if_neg (by simp [hslash]), if_neg (by simp [hstar])]
      omega
  induction front using List.twoStepInduction generalizing depth with
  | nil => exact .inr (hpos depth)
  | singleton x =>
    have hslash : c ≠ '/' := h.plain.ne (by decide)
    have hstar : c ≠ '*' := h.plain.ne (by decide)
    refine .inr ?_
    rw [List.cons_append, List.nil_append, blockCommentRest_cons_cons, if_neg (by simp [hstar]),
      if_neg (by simp [hslash]), List.length_singleton]
    have hrest := hpos depth
    omega
  | cons_cons x y front ih ih' =>
    have hopened := ih (depth + 1)
    have hclosed := ih (depth - 1)
    have hpassed := ih' y depth
    simp only [List.cons_append, blockCommentRest_cons_cons, List.length_cons] at hpassed ⊢
    split_ifs <;> omega

lemma blockComment?_within (h : Alike c d) (tail tail' : List Char) (x : Char)
    (front : List Char) :
    SameWithin id (x :: front).length (blockComment? (x :: front ++ c :: tail))
      (blockComment? (x :: front ++ d :: tail')) := by
  cases front with
  | nil =>
    have hc : c ≠ '*' := h.plain.ne (by decide)
    have hd : d ≠ '*' := h.plain'.ne (by decide)
    exact .inl (by simp [blockComment?_cons_cons, hc, hd])
  | cons y front =>
    simp only [List.cons_append, blockComment?_cons_cons]
    split_ifs
    · exact .some_add (blockCommentRest_within h tail tail' 0 front) 2
    · exact .inl rfl

/-! ### Strings -/

/-- Whether a string between triple quotes that has begun before the text is closed in it. -/
def ClosesString (cs : List Char) : Prop := (multilineStringRest? cs).isSome

lemma take_two_quotes_iff (h : Alike c d) (tail tail' front : List Char) :
    (front ++ d :: tail').take 2 = ['"', '"'] ↔ (front ++ c :: tail).take 2 = ['"', '"'] := by
  have hc : c ≠ '"' := h.plain.ne (by decide)
  have hd : d ≠ '"' := h.plain'.ne (by decide)
  match front with
  | [] => simp [hc, hd]
  | [x] => simp [hc, hd]
  | x :: y :: front => simp

lemma multilineStringRest?_within (h : Alike c d) {tail tail' : List Char}
    (hclose : ClosesString tail' → ClosesString tail) (front : List Char) :
    SameWithin id front.length (multilineStringRest? (front ++ c :: tail))
      (multilineStringRest? (front ++ d :: tail')) := by
  have hrest : ∀ j k, k < j → SameWithin id k ((multilineStringRest? tail).map (j + ·))
      ((multilineStringRest? tail').map (j + ·)) := by
    intro j k hk
    cases htail : multilineStringRest? tail with
    | some n => exact .inr ⟨j + n, rfl, by simp only [id]; omega⟩
    | none =>
      have htail' : multilineStringRest? tail' = none := by
        rw [← Option.not_isSome_iff_eq_none]
        intro hsome
        have hclosed := hclose hsome
        simp [ClosesString, htail] at hclosed
      exact .inl (by rw [htail'])
  have hnil : SameWithin id 0 (multilineStringRest? (c :: tail))
      (multilineStringRest? (d :: tail')) := by
    have hc : c ≠ '"' := h.plain.ne (by decide)
    have hd : d ≠ '"' := h.plain'.ne (by decide)
    rw [multilineStringRest?_cons (h.plain.ne (by decide)), if_neg (by simp [hc]),
      multilineStringRest?_cons (h.plain'.ne (by decide)), if_neg (by simp [hd])]
    exact hrest 1 0 (by omega)
  induction front using List.twoStepInduction with
  | nil => exact hnil
  | singleton x =>
    by_cases hx : x = '\\'
    · subst hx
      have hc : c ≠ '\n' := h.plain.ne (by decide)
      have hd : d ≠ '\n' := h.plain'.ne (by decide)
      simp only [List.cons_append, List.nil_append, multilineStringRest?_escape, hc, hd, if_false]
      exact hrest 2 1 (by omega)
    · have hquotes := take_two_quotes_iff h tail tail' []
      simp only [List.cons_append, List.nil_append, multilineStringRest?_cons hx] at hquotes ⊢
      simp only [hquotes]
      split_ifs
      · exact .inl rfl
      · exact hnil.map_add 1
  | cons_cons x y front ih ih' =>
    by_cases hx : x = '\\'
    · subst hx
      simp only [List.cons_append, multilineStringRest?_escape]
      split_ifs
      · exact .inl rfl
      · exact ih.map_add 2
    · have hquotes := take_two_quotes_iff h tail tail' (y :: front)
      have hfront := (ih' y).map_add 1
      change SameWithin id _ (multilineStringRest? (x :: (y :: front ++ c :: tail)))
        (multilineStringRest? (x :: (y :: front ++ d :: tail')))
      simp only [multilineStringRest?_cons hx, hquotes]
      split_ifs
      · exact .inl rfl
      · exact hfront

lemma multilineString?_within (h : Alike c d) {tail tail' : List Char}
    (hclose : ClosesString tail' → ClosesString tail) (x : Char) (front : List Char) :
    SameWithin id (x :: front).length (multilineString? (x :: front ++ c :: tail))
      (multilineString? (x :: front ++ d :: tail')) := by
  have hc : c ≠ '"' := h.plain.ne (by decide)
  have hd : d ≠ '"' := h.plain'.ne (by decide)
  simp only [List.cons_append, multilineString?_cons]
  match front with
  | [] => exact .inl (by simp [hc, hd])
  | [y] => exact .inl (by simp [hc, hd])
  | y :: z :: front =>
    have hfront := (multilineStringRest?_within h hclose front).map_add 3
    simp only [List.cons_append, List.take_succ_cons, List.take_zero, List.drop_succ_cons,
      List.drop_zero]
    split_ifs
    · exact hfront
    · exact .inl rfl

lemma stringRest_within (h : Alike c d) (tail tail' front : List Char) :
    stringRest (front ++ d :: tail') = stringRest (front ++ c :: tail) ∨
      front.length < stringRest (front ++ c :: tail) := by
  have hquote : c ≠ '"' := h.plain.ne (by decide)
  have hnewline : c ≠ '\n' := h.plain.ne (by decide)
  have hescape : c ≠ '\\' := h.plain.ne (by decide)
  have hnil : 0 < stringRest (c :: tail) := by
    rw [stringRest_cons hescape, if_neg hquote, if_neg hnewline]
    omega
  induction front using List.twoStepInduction with
  | nil => exact .inr hnil
  | singleton x =>
    by_cases hx : x = '\\'
    · subst hx
      refine .inr ?_
      simp only [List.cons_append, List.nil_append, stringRest_escape, hnewline, if_false,
        List.length_singleton]
      omega
    · simp only [List.cons_append, List.nil_append, stringRest_cons hx, List.length_singleton]
      split_ifs <;> omega
  | cons_cons x y front ih ih' =>
    by_cases hx : x = '\\'
    · subst hx
      simp only [List.cons_append, stringRest_escape, List.length_cons]
      split_ifs <;> omega
    · have hfront := ih' y
      change stringRest (x :: (y :: front ++ d :: tail')) =
        stringRest (x :: (y :: front ++ c :: tail)) ∨
          (y :: front).length + 1 < stringRest (x :: (y :: front ++ c :: tail))
      simp only [stringRest_cons hx]
      split_ifs <;> omega

lemma string?_within (h : Alike c d) (tail tail' : List Char) (x : Char) (front : List Char) :
    SameWithin id (x :: front).length (string? (x :: front ++ c :: tail))
      (string? (x :: front ++ d :: tail')) := by
  simp only [List.cons_append, string?_cons]
  split_ifs
  · exact .some_add (stringRest_within h tail tail' front) 1
  · exact .inl rfl

/-! ### Numbers and names -/

lemma digits?_within (h : Alike c d) (tail tail' : List Char) (x : Char) (front : List Char) :
    SameWithin id (x :: front).length (digits? (x :: front ++ c :: tail))
      (digits? (x :: front ++ d :: tail')) := by
  simp only [List.cons_append, digits?]
  split_ifs
  · have hdigit : isDigitOrUnderscore d = isDigitOrUnderscore c :=
      h.plain'.2.trans h.plain.2.symm
    exact .some_add (length_takeWhile_alike hdigit tail tail' front) 1
  · exact .inl rfl

lemma digits?_of_isPlain {x : Char} (hx : IsPlain x) (cs : List Char) :
    digits? (x :: cs) = none := by
  have hdigit := hx.2
  simp only [isDigitOrUnderscore, Bool.or_eq_false_iff] at hdigit
  simp [digits?, hdigit.1]

lemma fraction_within (h : Alike c d) (tail tail' front : List Char) :
    fraction (front ++ d :: tail') = fraction (front ++ c :: tail) ∨
      front.length < fraction (front ++ c :: tail) := by
  match front with
  | [] =>
    have hc : c ≠ '.' := h.plain.ne (by decide)
    have hd : d ≠ '.' := h.plain'.ne (by decide)
    exact .inl (by simp [fraction_cons, hc, hd])
  | [x] =>
    refine .inl ?_
    simp only [List.cons_append, List.nil_append, fraction_cons, digits?_of_isPlain h.plain,
      digits?_of_isPlain h.plain']
  | x :: y :: front =>
    change fraction (x :: (y :: front ++ d :: tail')) =
      fraction (x :: (y :: front ++ c :: tail)) ∨
        (y :: front).length + 1 < fraction (x :: (y :: front ++ c :: tail))
    simp only [fraction_cons]
    split_ifs
    · rcases digits?_within h tail tail' y front with heq | ⟨n, heq, hlt⟩
      · exact .inl (by rw [heq])
      · refine .inr ?_
        simp only [id] at hlt
        rw [heq, Option.map_some, Option.getD_some]
        omega
    · exact .inl rfl

lemma number?_within (h : Alike c d) (tail tail' : List Char) (x : Char) (front : List Char) :
    SameWithin id (x :: front).length (number? (x :: front ++ c :: tail))
      (number? (x :: front ++ d :: tail')) := by
  rw [number?, number?]
  rcases digits?_within h tail tail' x front with heq | ⟨n, heq, hlt⟩
  · rw [heq]
    cases digits? (x :: front ++ c :: tail) with
    | none => exact .inl rfl
    | some n =>
      simp only [Option.map_some]
      by_cases hn : n ≤ (x :: front).length
      · rw [List.drop_append_of_le_length hn, List.drop_append_of_le_length hn]
        rcases fraction_within h tail tail' ((x :: front).drop n) with heq | hlt
        · exact .inl (by rw [heq])
        · rw [List.length_drop] at hlt
          exact .inr ⟨_, rfl, by simp only [id]; omega⟩
      · exact .inr ⟨_, rfl, by simp only [id]; omega⟩
  · rw [heq]
    exact .inr ⟨_, rfl, Nat.lt_of_lt_of_le hlt (Nat.le_add_right _ _)⟩

lemma closesName_append_of_forall {front : List Char}
    (hfront : ∀ x ∈ front, isQuotedNameChar x = true) (rest : List Char) :
    ClosesName (front ++ rest) ↔ ClosesName rest := by
  rw [ClosesName, ClosesName, List.dropWhile_append_of_pos hfront]

lemma exists_first_of_mem {p : Char → Bool} {front : List Char} {x : Char} (hx : x ∈ front)
    (hend : p x = false) :
    ∃ lead y rest, front = lead ++ y :: rest ∧ (∀ z ∈ lead, p z = true) ∧ p y = false := by
  induction front with
  | nil => simp at hx
  | cons z front ih =>
    cases hz : p z with
    | false => exact ⟨[], z, front, rfl, by simp, hz⟩
    | true =>
      obtain rfl | hx := List.mem_cons.mp hx
      · simp [hz] at hend
      · obtain ⟨lead, y, rest, rfl, hlead, hy⟩ := ih hx
        exact ⟨z :: lead, y, rest, rfl, by simpa [hz] using hlead, hy⟩

/-- What is no part of a name ends names whatever follows it. -/
lemma closesName_append_of_mem {front : List Char} {x : Char} (hx : x ∈ front)
    (hend : isQuotedNameChar x = false) (rest : List Char) :
    ClosesName (front ++ rest) ↔ ClosesName front := by
  obtain ⟨lead, y, tail, rfl, hlead, hy⟩ := exists_first_of_mem hx hend
  rw [List.append_assoc, closesName_append_of_forall hlead, closesName_append_of_forall hlead]
  simp [ClosesName, hy]

lemma takeWhile_append_of_mem {p : Char → Bool} {front : List Char} {x : Char} (hx : x ∈ front)
    (hend : p x = false) (rest : List Char) :
    (front ++ rest).takeWhile p = front.takeWhile p := by
  obtain ⟨lead, y, tail, rfl, hlead, hy⟩ := exists_first_of_mem hx hend
  rw [List.append_assoc, List.takeWhile_append_of_pos hlead, List.takeWhile_append_of_pos hlead]
  simp [hy]

lemma quotedName?_within (h : Alike c d) {tail tail' : List Char} (x : Char) (front : List Char)
    (hclose : quotedName? (x :: front ++ c :: tail) = none → x = '\x60' → '\n' ∉ front →
      ClosesName (d :: tail') → ClosesName (c :: tail)) :
    SameWithin id (x :: front).length (quotedName? (x :: front ++ c :: tail))
      (quotedName? (x :: front ++ d :: tail')) := by
  simp only [List.cons_append, quotedName?_cons] at hclose ⊢
  by_cases hx : x = '\x60'
  · by_cases hfront : ∀ y ∈ front, isQuotedNameChar y = true
    · -- The name goes on behind the front.
      have hchar : ∀ {y}, IsPlain y → isQuotedNameChar y = true := fun hy => by
        simp [isQuotedNameChar, hy.ne (x := '\x60') (by decide), hy.ne (x := '\n') (by decide)]
      have hnewline : '\n' ∉ front := fun hmem => by simpa [isQuotedNameChar] using hfront _ hmem
      simp only [closesName_append_of_forall hfront, List.takeWhile_append_of_pos hfront,
        List.takeWhile_cons_of_pos (hchar h.plain), List.takeWhile_cons_of_pos (hchar h.plain')]
      by_cases hcloses : ClosesName (c :: tail)
      · refine .inr ⟨_, if_pos ⟨hx, by simp, hcloses⟩, ?_⟩
        simp only [List.length_append, List.length_cons, id]
        omega
      · have hcloses' : ¬ ClosesName (d :: tail') := fun hd => hcloses
          (hclose (by simp [closesName_append_of_forall hfront, hcloses]) hx hnewline hd)
        exact .inl (by simp [hcloses, hcloses'])
    · obtain ⟨y, hy, hend⟩ : ∃ y ∈ front, isQuotedNameChar y = false := by simpa using hfront
      simp only [closesName_append_of_mem hy hend, takeWhile_append_of_mem hy hend]
      exact .inl rfl
  · exact .inl (by simp [hx])

lemma directive?_within (h : Alike c d) (tail tail' : List Char) (x : Char) (front : List Char) :
    SameWithin id (x :: front).length (directive? (x :: front ++ c :: tail))
      (directive? (x :: front ++ d :: tail')) := by
  cases front with
  | nil =>
    simp only [List.cons_append, List.nil_append, directive?, h.nameStart_eq]
    split_ifs
    · exact .inr ⟨_, rfl, by simp only [List.length_singleton, id]; omega⟩
    · exact .inl rfl
  | cons y front =>
    simp only [List.cons_append, directive?]
    split_ifs
    · exact .some_add (length_takeWhile_alike h.wordChar_eq tail tail' front) 2
    · exact .inl rfl

lemma name?_within (h : Alike c d) (tail tail' : List Char) (x : Char) (front : List Char) :
    SameWithin id (x :: front).length (name? (x :: front ++ c :: tail))
      (name? (x :: front ++ d :: tail')) := by
  simp only [List.cons_append, name?]
  split_ifs
  · exact .some_add (length_takeWhile_alike h.nameChar_eq tail tail' front) 1
  · exact .inl rfl

/-! ### The first lexeme -/

/-- A lexeme that ends in the front, and that there is none, does not depend on what follows. -/
theorem lexeme?_within (h : Alike c d) {tail tail' : List Char}
    (hstring : ClosesString tail' → ClosesString tail) (x : Char) (front : List Char)
    (hname : lexeme? (x :: front ++ c :: tail) = none → x = '\x60' → '\n' ∉ front →
      ClosesName (d :: tail') → ClosesName (c :: tail)) :
    SameWithin Prod.snd (x :: front).length (lexeme? (x :: front ++ c :: tail))
      (lexeme? (x :: front ++ d :: tail')) := by
  have hfixed : ∀ {r r' : Option Nat} (kind : TokenKind), SameWithin id (x :: front).length r r' →
      SameWithin Prod.snd (x :: front).length (r.map (kind, ·)) (r'.map (kind, ·)) :=
    fun kind hread => hread.map (fun _ => rfl) fun _ _ _ => rfl
  refine (hfixed .comment (lineComment?_within h tail tail' x front)).orElse ?_
  refine (hfixed .comment (blockComment?_within h tail tail' x front)).orElse ?_
  refine (hfixed .string (multilineString?_within h hstring x front)).orElse ?_
  refine (hfixed .string (string?_within h tail tail' x front)).orElse ?_
  refine (hfixed .number (number?_within h tail tail' x front)).orElse ?_
  refine (hfixed .identifier (quotedName?_within h x front fun hnone hx => ?_)).orElse ?_
  · subst hx
    exact hname (by rw [List.cons_append, lexeme?_backtick, ← List.cons_append, hnone]; rfl) rfl
  refine (hfixed .other (directive?_within h tail tail' x front)).orElse ?_
  refine (name?_within h tail tail' x front).map (fun _ => rfl)
    fun n _ (hn : n ≤ (x :: front).length) => ?_
  rw [List.take_append_of_le_length hn, List.take_append_of_le_length hn]

/-- A lexeme that ends in the front stays as it is. -/
lemma lexeme?_eq_of_some (h : Alike c d) {tail tail' : List Char}
    (hstring : ClosesString tail' → ClosesString tail) {text front : List Char} {kind : TokenKind}
    (hlexeme : lexeme? (text ++ front ++ c :: tail) = some (kind, text.length)) :
    lexeme? (text ++ front ++ d :: tail') = some (kind, text.length) := by
  obtain ⟨x, text, rfl⟩ := List.exists_cons_of_length_pos (lexeme?_bounds hlexeme).1
  have hwithin := lexeme?_within h hstring x (text ++ front) fun hnone => by
    rw [← List.cons_append, hlexeme] at hnone
    cases hnone
  rw [← List.cons_append, hlexeme] at hwithin
  rcases hwithin with heq | ⟨a, heq, hlt⟩
  · exact heq
  · obtain rfl := Option.some.inj heq
    simp only [List.length_append, List.length_cons] at hlt
    omega

/-- Where no lexeme begins there is none afterwards, unless a name is closed that was not closed
before. -/
lemma lexeme?_eq_none (h : Alike c d) {tail tail' : List Char}
    (hstring : ClosesString tail' → ClosesString tail) {x : Char} {front : List Char}
    (hlexeme : lexeme? (x :: front ++ c :: tail) = none)
    (hname : x = '\x60' → '\n' ∉ front → ClosesName (d :: tail') → ClosesName (c :: tail)) :
    lexeme? (x :: front ++ d :: tail') = none := by
  have hwithin := lexeme?_within h hstring x front fun _ => hname
  rw [hlexeme] at hwithin
  rcases hwithin with heq | ⟨a, heq, -⟩
  · exact heq
  · cases heq

end ParenLint.Swift
