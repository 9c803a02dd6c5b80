import Mathlib.Data.List.Basic
import ParenLint.Proofs.Swift.Locality
import ParenLint.Proofs.Swift.StringBody

/-!
# Lexemes and the ends of lines

Apart from block comments and strings between triple quotes, no lexeme reaches over the end of its
line, closed or not. So where a text ends in a newline and none of these two is open, what follows
the text has no part in the lexeme that begins it.
-/

namespace ParenLint.Swift

open ParenLint.Text

variable {x : Char} {cs front : List Char}

/-! ### What may be open at the end of a text -/

/-- Whether a block comment that has begun before the text inside `depth` others is still open at
the end of the text. -/
def commentOpen (depth : Nat) : List Char → Bool
  | x :: y :: cs =>
    if x = '/' ∧ y = '*' then commentOpen (depth + 1) cs
    else if x = '*' ∧ y = '/' then if depth = 0 then false else commentOpen (depth - 1) cs
    else commentOpen depth (y :: cs)
  | _ => true

/-- Whether a string between triple quotes that has begun before the text is still open at the end
of the text: it is neither closed there nor made ill-formed by a newline behind a backslash. -/
def multilineStringOpen : List Char → Bool
  | x :: y :: cs =>
    if x = '\\' then if y = '\n' then false else multilineStringOpen cs
    else if x = '"' ∧ (y :: cs).take 2 = ['"', '"'] then false
    else multilineStringOpen (y :: cs)
  | _ => true

/-- Whether the text begins with a block comment or a string between triple quotes that is still
open at its end. -/
def beginsOpen : List Char → Bool
  | '/' :: '*' :: cs => commentOpen 0 cs
  | '"' :: '"' :: '"' :: cs => multilineStringOpen cs
  | _ => false

/-! ### Comments and strings over several lines -/

/-- A comment that has come to its end in a text does not depend on what follows. -/
lemma blockCommentRest_append_of_closed {depth : Nat} (h : commentOpen depth cs = false)
    (rest : List Char) :
    blockCommentRest depth (cs ++ rest) = blockCommentRest depth cs := by
  fun_induction commentOpen depth cs with
  | case1 depth x y cs hopen ih =>
    simp only [List.cons_append, blockCommentRest_cons_cons, if_pos hopen, ih h]
  | case2 x y cs hopen hclose =>
    simp only [List.cons_append, blockCommentRest_cons_cons, if_neg hopen, if_pos hclose, if_pos]
  | case3 depth x y cs hopen hclose hdepth ih =>
    simp only [List.cons_append, blockCommentRest_cons_cons, if_neg hopen, if_pos hclose,
      if_neg hdepth, ih h]
  | case4 depth x y cs hopen hclose ih =>
    have hrest := ih h
    rw [List.cons_append] at hrest
    simp only [List.cons_append, blockCommentRest_cons_cons, if_neg hopen, if_neg hclose, hrest]
  | case5 => cases h

/-- A comment that is open goes on with what follows. -/
lemma length_lt_blockCommentRest {depth : Nat} (h : commentOpen depth cs = true) :
    cs.length < blockCommentRest depth (cs ++ [' ']) := by
  fun_induction commentOpen depth cs with
  | case1 depth x y cs hopen ih =>
    have hrest := ih h
    simp only [List.cons_append, blockCommentRest_cons_cons, if_pos hopen, List.length_cons]
    omega
  | case2 => cases h
  | case3 depth x y cs hopen hclose hdepth ih =>
    have hrest := ih h
    simp only [List.cons_append, blockCommentRest_cons_cons, if_neg hopen, if_pos hclose,
      if_neg hdepth, List.length_cons]
    omega
  | case4 depth x y cs hopen hclose ih =>
    have hrest := ih h
    rw [List.cons_append, List.length_cons] at hrest
    simp only [List.cons_append, blockCommentRest_cons_cons, if_neg hopen, if_neg hclose,
      List.length_cons]
    omega
  | case5 cs depth hshort =>
    match cs with
    | [] => simp [blockCommentRest]
    | [x] => simp [blockCommentRest_cons_cons, blockCommentRest]
    | x :: y :: cs => exact absurd rfl (hshort x y cs)

/-- A string that is closed or ill-formed in a text does not depend on what follows. -/
lemma multilineStringRest?_append (h : multilineStringOpen cs = false) (rest : List Char) :
    multilineStringRest? (cs ++ rest) = multilineStringRest? cs := by
  fun_induction multilineStringOpen cs with
  | case1 cs => simp only [List.cons_append, multilineStringRest?_escape, if_pos]
  | case2 y cs hy ih => simp only [List.cons_append, multilineStringRest?_escape, if_neg hy, ih h]
  | case3 x y cs hx hquotes =>
    obtain ⟨rfl, htake⟩ := hquotes
    obtain ⟨tail, htail⟩ := exists_of_take_two_quotes htake
    rw [htail]
    rfl
  | case4 x y cs hx hquotes ih =>
    -- The text goes on behind `y`, since otherwise the string would be open.
    obtain ⟨z, cs, rfl⟩ : ∃ z tail, cs = z :: tail := by
      cases cs with
      | nil => cases h
      | cons z cs => exact ⟨z, cs, rfl⟩
    have hquotes' : ¬ (x = '"' ∧ (y :: z :: cs ++ rest).take 2 = ['"', '"']) := hquotes
    rw [List.cons_append, multilineStringRest?_cons hx, multilineStringRest?_cons hx,
      if_neg hquotes, if_neg hquotes', ih h]
  | case5 => cases h

/-- A string that is open at the end of a line is closed by quotes on the next one. -/
lemma multilineStringRest?_append_tripleQuotes (hline : ∀ c ∈ cs.getLast?, c = '\n')
    (h : multilineStringOpen cs = true) :
    multilineStringRest? (cs ++ tripleQuotes) = some (cs.length + 3) := by
  fun_induction multilineStringOpen cs with
  | case1 => cases h
  | case2 y cs hy ih =>
    have hline' : ∀ c ∈ cs.getLast?, c = '\n' := by
      cases cs with
      | nil => simp
      | cons z cs => simpa using hline
    simp only [List.cons_append, multilineStringRest?_escape, if_neg hy, ih hline' h,
      Option.map_some, List.length_cons]
    congr 1
    omega
  | case3 => cases h
  | case4 x y cs hx hquotes ih =>
    have hrest := ih (by simpa using hline) h
    have hquotes' : ¬ (x = '"' ∧ (y :: cs ++ tripleQuotes).take 2 = ['"', '"']) := by
      cases cs with
      | nil =>
        obtain rfl : y = '\n' := by simpa using hline
        simp
      | cons z cs => exact hquotes
    rw [List.cons_append, multilineStringRest?_cons hx, if_neg hquotes', hrest, Option.map_some,
      List.length_cons (a := x)]
    congr 1
    omega
  | case5 cs hshort =>
    match cs with
    | [] => rfl
    | [x] =>
      obtain rfl : x = '\n' := by simpa using hline
      rfl
    | x :: y :: cs => exact absurd rfl (hshort x y cs)

/-! ### Readers on text that ends in a newline -/

/-- Behind a character that ends no line the text still ends in a newline. -/
lemma getLast?_of_cons (hline : (x :: cs).getLast? = some '\n') (hx : x ≠ '\n') :
    cs.getLast? = some '\n' := by
  cases cs with
  | nil => exact absurd (by simpa using hline) hx
  | cons y cs => simpa using hline

/-- What is left of a text that ends in a newline ends in it too. -/
lemma getLast?_of_append (hline : (front ++ cs).getLast? = some '\n') (hne : cs ≠ []) :
    cs.getLast? = some '\n' := by
  rwa [List.getLast?_append_of_ne_nil front hne] at hline

lemma newline_mem (hline : cs.getLast? = some '\n') : '\n' ∈ cs := List.mem_of_getLast? hline

/-- A run that no newline belongs to ends in the text. -/
lemma takeWhile_append_of_getLast? {p : Char → Bool} (hline : cs.getLast? = some '\n')
    (hp : p '\n' = false) (rest : List Char) : (cs ++ rest).takeWhile p = cs.takeWhile p :=
  takeWhile_append_of_mem (newline_mem hline) hp rest

lemma getLast?_dropWhile {p : Char → Bool} (hline : cs.getLast? = some '\n')
    (hp : p '\n' = false) : (cs.dropWhile p).getLast? = some '\n' := by
  obtain ⟨lead, y, tail, rfl, hlead, hy⟩ := exists_first_of_mem (newline_mem hline) hp
  rw [List.dropWhile_append_of_pos hlead, List.dropWhile_cons_of_neg (by simp [hy])]
  exact getLast?_of_append hline (List.cons_ne_nil y tail)

lemma lineComment?_append (hline : cs.getLast? = some '\n') (rest : List Char) :
    lineComment? (cs ++ rest) = lineComment? cs := by
  match cs with
  | [] => cases hline
  | [x] =>
    obtain rfl : x = '\n' := by simpa using hline
    rfl
  | x :: y :: cs =>
    rw [List.cons_append, List.cons_append, lineComment?_cons_cons, lineComment?_cons_cons]
    split_ifs with hopen
    · obtain ⟨rfl, rfl⟩ := hopen
      have hcs := getLast?_of_cons (getLast?_of_cons hline (by decide)) (by decide)
      rw [takeWhile_append_of_getLast? hcs (by decide)]
    · rfl

lemma blockComment?_append (hline : cs.getLast? = some '\n') (hclosed : beginsOpen cs = false)
    (rest : List Char) : blockComment? (cs ++ rest) = blockComment? cs := by
  match cs with
  | [] => cases hline
  | [x] =>
    obtain rfl : x = '\n' := by simpa using hline
    rfl
  | x :: y :: cs =>
    rw [List.cons_append, List.cons_append, blockComment?_cons_cons, blockComment?_cons_cons]
    split_ifs with hopen
    · obtain ⟨rfl, rfl⟩ := hopen
      rw [blockCommentRest_append_of_closed hclosed]
    · rfl

lemma multilineString?_append (hline : cs.getLast? = some '\n') (hclosed : beginsOpen cs = false)
    (rest : List Char) : multilineString? (cs ++ rest) = multilineString? cs := by
  match cs with
  | [] => cases hline
  | [x] =>
    obtain rfl : x = '\n' := by simpa using hline
    rfl
  | [x, y] =>
    obtain rfl : y = '\n' := by simpa using hline
    simp [multilineString?_cons]
  | x :: y :: z :: cs =>
    rw [List.cons_append, multilineString?_cons, multilineString?_cons]
    by_cases hopen : x = '"' ∧ [y, z] = ['"', '"']
    · obtain ⟨rfl, hquotes⟩ := hopen
      obtain ⟨rfl, rfl⟩ : y = '"' ∧ z = '"' := by simpa using hquotes
      exact congrArg (Option.map (3 + ·)) (multilineStringRest?_append hclosed rest)
    · exact (if_neg hopen).trans (if_neg hopen).symm

/-- A string on one line ends in its line, closed or not. -/
lemma stringRest_append (hline : cs.getLast? = some '\n') (rest : List Char) :
    stringRest (cs ++ rest) = stringRest cs := by
  fun_induction stringRest cs with
  | case1 => cases hline
  | case2 => rw [List.cons_append, stringRest]
  | case3 => rw [List.cons_append, stringRest]
  | case4 => cases hline
  | case5 cs => rw [List.cons_append, List.cons_append, stringRest_escape, if_pos rfl]
  | case6 c cs hc ih =>
    have hcs := getLast?_of_cons (getLast?_of_cons hline (by decide)) hc
    rw [List.cons_append, List.cons_append, stringRest_escape, if_neg hc, ih hcs]
  | case7 c cs hquote hnewline hend hescape ih =>
    have hcs := getLast?_of_cons hline hnewline
    have hc : c ≠ '\\' := by
      rintro rfl
      obtain ⟨d, tail, rfl⟩ := List.exists_cons_of_ne_nil (List.ne_nil_of_mem (newline_mem hcs))
      exact hescape d tail rfl rfl
    rw [List.cons_append, stringRest_cons hc, if_neg hquote, if_neg hnewline, ih hcs]

lemma string?_append (hline : cs.getLast? = some '\n') (rest : List Char) :
    string? (cs ++ rest) = string? cs := by
  cases cs with
  | nil => cases hline
  | cons x cs =>
    rw [List.cons_append, string?_cons, string?_cons]
    split_ifs with hquote
    · rw [stringRest_append (getLast?_of_cons hline (by simp [hquote]))]
    · rfl

lemma ne_newline_of_isDecimalDigit (h : isDecimalDigit x = true) : x ≠ '\n' := by
  rintro rfl
  exact absurd h (by decide +kernel)

lemma ne_newline_of_isNameStart (h : isNameStart x = true) : x ≠ '\n' := by
  rintro rfl
  cases h

lemma digits?_append (hline : cs.getLast? = some '\n') (rest : List Char) :
    digits? (cs ++ rest) = digits? cs := by
  cases cs with
  | nil => cases hline
  | cons x cs =>
    rw [List.cons_append, digits?, digits?]
    split_ifs with hdigit
    · have hcs := getLast?_of_cons hline (ne_newline_of_isDecimalDigit hdigit)
      rw [takeWhile_append_of_getLast? hcs (by decide +kernel)]
    · rfl

/-- Behind digits the text goes on, at the latest with the newline. -/
lemma getLast?_drop_of_digits? {n : Nat} (hline : cs.getLast? = some '\n')
    (h : digits? cs = some n) : (cs.drop n).getLast? = some '\n' := by
  cases cs with
  | nil => cases h
  | cons x cs =>
    rw [digits?, Option.ite_none_right_eq_some, Option.some.injEq] at h
    obtain ⟨hdigit, rfl⟩ := h
    have hcs := getLast?_of_cons hline (ne_newline_of_isDecimalDigit hdigit)
    rw [Nat.add_comm, List.drop_succ_cons, drop_length_takeWhile]
    exact getLast?_dropWhile hcs (by decide +kernel)

lemma fraction_append (hline : cs.getLast? = some '\n') (rest : List Char) :
    fraction (cs ++ rest) = fraction cs := by
  cases cs with
  | nil => cases hline
  | cons x cs =>
    rw [List.cons_append, fraction_cons, fraction_cons]
    split_ifs with hpoint
    · rw [digits?_append (getLast?_of_cons hline (by simp [hpoint]))]
    · rfl

lemma number?_append (hline : cs.getLast? = some '\n') (rest : List Char) :
    number? (cs ++ rest) = number? cs := by
  rw [number?, number?, digits?_append hline]
  apply Option.map_congr
  intro n hn
  rw [List.drop_append_of_le_length (digits?_bounds hn).2,
    fraction_append (getLast?_drop_of_digits? hline hn)]

lemma quotedName?_append (hline : cs.getLast? = some '\n') (rest : List Char) :
    quotedName? (cs ++ rest) = quotedName? cs := by
  cases cs with
  | nil => cases hline
  | cons x cs =>
    rw [List.cons_append, quotedName?_cons, quotedName?_cons]
    by_cases hx : x = '\x60'
    · have hcs := getLast?_of_cons hline (by simp [hx])
      have hend : isQuotedNameChar '\n' = false := rfl
      simp only [takeWhile_append_of_getLast? hcs hend,
        closesName_append_of_mem (newline_mem hcs) hend]
    · rw [if_neg fun h => hx h.1, if_neg fun h => hx h.1]

lemma directive?_append (hline : cs.getLast? = some '\n') (rest : List Char) :
    directive? (cs ++ rest) = directive? cs := by
  match cs with
  | [] => cases hline
  | [x] =>
    obtain rfl : x = '\n' := by simpa using hline
    simp [directive?_cons]
  | x :: y :: cs =>
    rw [List.cons_append, List.cons_append, directive?, directive?]
    split_ifs with hname
    · have hx : x ≠ '\n' := by
        rintro rfl
        simp at hname
      have hcs := getLast?_of_cons (getLast?_of_cons hline hx) (ne_newline_of_isNameStart hname.2)
      rw [takeWhile_append_of_getLast? hcs (by decide +kernel)]
    · rfl

lemma name?_append (hline : cs.getLast? = some '\n') (rest : List Char) :
    name? (cs ++ rest) = name? cs := by
  cases cs with
  | nil => cases hline
  | cons x cs =>
    rw [List.cons_append, name?, name?]
    split_ifs with hname
    · have hcs := getLast?_of_cons hline (ne_newline_of_isNameStart hname)
      rw [takeWhile_append_of_getLast? hcs (by decide)]
    · rfl

/-! ### The first lexeme -/

/-- No lexeme looks further than the text in which its line ends, unless it is left open. -/
theorem lexeme?_append (hline : cs.getLast? = some '\n') (hclosed : beginsOpen cs = false)
    (rest : List Char) : lexeme? (cs ++ rest) = lexeme? cs := by
  have hname : (name? cs).map (fun n => (nameKind ((cs ++ rest).take n), n)) =
      (name? cs).map (fun n => (nameKind (cs.take n), n)) := by
    apply Option.map_congr
    intro n hn
    rw [List.take_append_of_le_length (name?_bounds hn).2]
  rw [lexeme?, lexeme?, lineComment?_append hline, blockComment?_append hline hclosed,
    multilineString?_append hline hclosed, string?_append hline, number?_append hline,
    quotedName?_append hline, directive?_append hline, name?_append hline, hname]

/-- A comment or a string that is left open can be ended so that it reaches over the text. -/
lemma exists_lexeme?_of_beginsOpen (hline : cs.getLast? = some '\n') (h : beginsOpen cs = true) :
    ∃ rest kind n, lexeme? (cs ++ rest) = some (kind, n) ∧ cs.length < n := by
  fun_cases beginsOpen cs with
  | case1 cs =>
    have hread : lexeme? ('/' :: '*' :: cs ++ [' ']) =
        some (.comment, 2 + blockCommentRest 0 (cs ++ [' '])) := rfl
    have hlt := length_lt_blockCommentRest h
    refine ⟨_, _, _, hread, ?_⟩
    simp only [List.length_cons]
    omega
  | case2 cs =>
    have hcs : cs.getLast? = some '\n' :=
      getLast?_of_cons (getLast?_of_cons (getLast?_of_cons hline (by decide)) (by decide))
        (by decide)
    have hend := multilineStringRest?_append_tripleQuotes (by simp [hcs]) h
    have hread : lexeme? ('"' :: '"' :: '"' :: cs ++ tripleQuotes) =
        some (.string, 3 + (cs.length + 3)) := by
      simp only [List.cons_append, lexeme?_quote, multilineString?, hend]
      rfl
    refine ⟨_, _, _, hread, ?_⟩
    simp only [List.length_cons]
    omega
  | case3 cs hcomment hstring =>
    rw [beginsOpen] at h
    · cases h
    · exact hcomment
    · exact hstring

end ParenLint.Swift
