import ParenLint.Proofs.Swift.Readers

/-!
# Bodies of strings

The body of a string is a sequence of characters that stand for themselves and of characters behind
a backslash. The readers of strings go through it unit by unit, up to the first unescaped quotes
that close the string or the first unit that may not stand in it.
-/

namespace ParenLint.Swift

/-- A character that stands for itself, or a backslash and the character behind it. -/
inductive StringUnit
  | plain (c : Char)
  | escaped (c : Char)
  deriving DecidableEq, Repr

namespace StringUnit

/-- The characters of a unit. -/
def text : StringUnit → List Char
  | plain c => [c]
  | escaped c => ['\\', c]

lemma text_length_pos (u : StringUnit) : 0 < u.text.length := by
  cases u <;> simp [text]

/-- The characters of a body. -/
def texts (us : List StringUnit) : List Char := us.flatMap text

@[simp] lemma texts_nil : texts [] = [] := rfl

@[simp] lemma texts_cons (u : StringUnit) (us : List StringUnit) :
    texts (u :: us) = u.text ++ texts us := rfl

@[simp] lemma texts_append (us vs : List StringUnit) : texts (us ++ vs) = texts us ++ texts vs :=
  List.flatMap_append

/-- A double quote without a backslash before it. -/
def quote : StringUnit := plain '"'

/-- The unit may stand in a string on one line. -/
def IsInline : StringUnit → Prop
  | plain c => c ≠ '"' ∧ c ≠ '\\' ∧ c ≠ '\n'
  | escaped c => c ≠ '\n'

end StringUnit

open StringUnit

variable {us : List StringUnit} {cs rest : List Char}

/-! ### Strings on one line -/

lemma stringRest_texts (h : ∀ u ∈ us, u.IsInline) (rest : List Char) :
    stringRest (texts us ++ rest) = (texts us).length + stringRest rest := by
  induction us with
  | nil => simp
  | cons u us ih =>
    have hrest := ih fun v hv => h v (List.mem_cons_of_mem u hv)
    have hu := h u List.mem_cons_self
    rw [texts_cons, List.append_assoc, List.length_append, Nat.add_assoc, ← hrest]
    cases u with
    | plain c =>
      obtain ⟨hquote, hescape, hline⟩ := hu
      exact (stringRest_cons hescape _).trans (by rw [if_neg hquote, if_neg hline]; rfl)
    | escaped c => exact (stringRest_escape c _).trans (if_neg hu)

/-! ### Strings between triple quotes -/

/-- Three double quotes. -/
def tripleQuotes : List Char := ['"', '"', '"']

/-- The body may stand between triple quotes: no backslash stands alone in it, and no three quotes
stand in a row without a backslash. -/
structure IsMultilineBody (us : List StringUnit) : Prop where
  no_backslash : .plain '\\' ∉ us
  no_triple : ¬ [quote, quote, quote] <:+: us

lemma IsMultilineBody.of_infix {vs : List StringUnit} (h : IsMultilineBody us) (hpart : vs <:+: us) :
    IsMultilineBody vs :=
  ⟨fun hmem => h.no_backslash (hpart.mem hmem), fun hquotes => h.no_triple (hquotes.trans hpart)⟩

/-- The string between triple quotes with the given body. -/
def multilineLiteral (us : List StringUnit) : List Char := tripleQuotes ++ texts us ++ tripleQuotes

lemma eq_quote_of_text_append {u : StringUnit} {tail : List Char}
    (h : u.text ++ cs = '"' :: tail) : u = quote ∧ cs = tail := by
  cases u with
  | plain c =>
    obtain ⟨rfl, rfl⟩ := List.cons.inj h
    exact ⟨rfl, rfl⟩
  | escaped c => simp [text] at h

/-- Behind an unescaped quote no two quotes follow, unless the body ends and they go on there. -/
lemma not_take_two_quotes (htriple : ¬ [quote, quote, quote] <:+: quote :: us)
    (hlast : (quote :: us).getLast? = some quote → rest.head? ≠ some '"') :
    (texts us ++ rest).take 2 ≠ ['"', '"'] := by
  intro htake
  obtain ⟨tail, htail⟩ := exists_of_take_two_quotes htake
  match us with
  | [] => exact hlast rfl (congrArg List.head? htail)
  | [u] =>
    rw [texts_cons, List.append_assoc] at htail
    obtain ⟨rfl, hrest⟩ := eq_quote_of_text_append htail
    exact hlast rfl (congrArg List.head? hrest)
  | u :: v :: us =>
    rw [texts_cons, List.append_assoc] at htail
    obtain ⟨rfl, hrest⟩ := eq_quote_of_text_append htail
    rw [texts_cons, List.append_assoc] at hrest
    obtain ⟨rfl, -⟩ := eq_quote_of_text_append hrest
    exact htriple ⟨[], us, rfl⟩

/-- The reader passes over units in which the string is not closed. -/
lemma multilineStringRest?_texts (h : IsMultilineBody us) (hescaped : .escaped '\n' ∉ us)
    (hlast : us.getLast? = some quote → rest.head? ≠ some '"') :
    multilineStringRest? (texts us ++ rest) =
      (multilineStringRest? rest).map ((texts us).length + ·) := by
  induction us with
  | nil => simp
  | cons u us ih =>
    rw [List.mem_cons, not_or] at hescaped
    have hrest := ih (h.of_infix (List.suffix_cons u us).isInfix) hescaped.2
      fun hus => hlast (by rw [List.getLast?_cons, hus]; rfl)
    rw [texts_cons, List.append_assoc]
    cases u with
    | plain c =>
      have hc : c ≠ '\\' := fun heq => h.no_backslash (by simp [heq])
      have hclosed : ¬ (c = '"' ∧ (texts us ++ rest).take 2 = ['"', '"']) := by
        rintro ⟨rfl, htake⟩
        exact not_take_two_quotes h.no_triple hlast htake
      rw [text, List.singleton_append, multilineStringRest?_cons hc, if_neg hclosed, hrest,
        Option.map_map]
      congr 1
      funext n
      simp only [Function.comp_apply, List.length_cons, List.length_append, List.length_nil]
      omega
    | escaped c =>
      have hc : c ≠ '\n' := fun heq => hescaped.1 (by rw [heq])
      rw [text, List.cons_append, List.singleton_append, multilineStringRest?_escape, if_neg hc,
        hrest, Option.map_map]
      congr 1
      funext n
      simp only [Function.comp_apply, List.length_cons, List.length_append, List.length_nil]
      omega

/-- The reader gives up at a newline behind a backslash. -/
lemma multilineStringRest?_eq_none (h : IsMultilineBody us) (hescaped : .escaped '\n' ∈ us)
    (rest : List Char) : multilineStringRest? (texts us ++ rest) = none := by
  obtain ⟨front, back, rfl, hfront⟩ := List.eq_append_cons_of_mem hescaped
  have hhead : (texts (.escaped '\n' :: back) ++ rest).head? ≠ some '"' := by simp [text]
  rw [texts_append, List.append_assoc,
    multilineStringRest?_texts (h.of_infix (List.prefix_append front _).isInfix) hfront
      fun _ => hhead]
  rfl

/-! ### The lexeme at a double quote -/

lemma lexeme?_quote (cs : List Char) :
    lexeme? ('"' :: cs) =
      some (.string, (multilineString? ('"' :: cs)).getD (1 + stringRest cs)) := by
  have hline : lineComment? ('"' :: cs) = none := by simp [lineComment?]
  have hblock : blockComment? ('"' :: cs) = none := by simp [blockComment?]
  have hstring : string? ('"' :: cs) = some (1 + stringRest cs) := rfl
  cases hmultiline : multilineString? ('"' :: cs) <;>
    simp [lexeme?, hline, hblock, hmultiline, hstring]

/-- Strings begin with a double quote. -/
lemma eq_quote_of_lexeme?_string {x : Char} {n : Nat}
    (h : lexeme? (x :: cs) = some (.string, n)) : x = '"' := by
  have hkind : ∀ word, nameKind word ≠ .string := by
    intro word
    rw [nameKind]
    split_ifs <;> simp
  simp only [lexeme?, Option.orElse_eq_orElse, Option.orElse_eq_or, Option.or_eq_some_iff,
    Option.map_eq_some_iff, Prod.mk.injEq, reduceCtorEq, false_and, and_false, exists_false,
    hkind, false_or, or_false] at h
  obtain ⟨-, -, ⟨_, hread, -⟩ | ⟨-, _, hread, -⟩⟩ := h
  · rw [multilineString?_cons, Option.ite_none_right_eq_some] at hread
    exact hread.1.1
  · rw [string?_cons, Option.ite_none_right_eq_some] at hread
    exact hread.1

lemma lexeme?_string (h : ∀ u ∈ us, u.IsInline) (rest : List Char)
    (hrest : us = [] → rest.head? ≠ some '"') :
    lexeme? ('"' :: (texts us ++ '"' :: rest)) = some (.string, (texts us).length + 2) := by
  have htake : (texts us ++ '"' :: rest).take 2 ≠ ['"', '"'] := by
    intro htake
    obtain ⟨tail, htail⟩ := exists_of_take_two_quotes htake
    cases us with
    | nil => exact hrest rfl (by simp [(List.cons.inj htail).2])
    | cons u us =>
      rw [texts_cons, List.append_assoc] at htail
      obtain ⟨rfl, -⟩ := eq_quote_of_text_append htail
      exact (h quote List.mem_cons_self).1 rfl
  rw [lexeme?_quote, multilineString?_cons, if_neg (by simp [htake]), stringRest_texts h,
    stringRest_cons (by decide), if_pos rfl, Option.getD_none]
  congr 2
  omega

lemma lexeme?_multilineLiteral (h : IsMultilineBody us) (hlast : us.getLast? ≠ some quote)
    (hescaped : .escaped '\n' ∉ us) (rest : List Char) :
    lexeme? (multilineLiteral us ++ rest) = some (.string, (multilineLiteral us).length) := by
  have hclose : multilineStringRest? (tripleQuotes ++ rest) = some 3 := by
    simp [tripleQuotes, multilineStringRest?]
  have hread : multilineStringRest? (texts us ++ (tripleQuotes ++ rest)) =
      some ((texts us).length + 3) := by
    rw [multilineStringRest?_texts h hescaped fun hquote => absurd hquote hlast, hclose,
      Option.map_some]
  have hliteral : multilineLiteral us ++ rest =
      '"' :: '"' :: '"' :: (texts us ++ (tripleQuotes ++ rest)) := by
    simp [multilineLiteral, tripleQuotes]
  rw [hliteral, lexeme?_quote, multilineString?, hread]
  simp [multilineLiteral, tripleQuotes]
  omega

end ParenLint.Swift
