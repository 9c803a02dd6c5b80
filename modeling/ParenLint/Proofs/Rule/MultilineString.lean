import Mathlib.Data.List.Induction
import ParenLint.Proofs.Rule.Reported
import ParenLint.Proofs.Rule.Substitution
import ParenLint.Proofs.Swift.Classification
import ParenLint.Proofs.Swift.StringBody

/-!
# No code in multi-line strings

A string between triple quotes is a string throughout, and nothing in it is reported or rewritten,
unless a backslash in it escapes a newline. Then the quotes at its front are read as strings on one
line, and what follows the newline is read as code.
-/

namespace ParenLint.Swift

open StringUnit

variable {front rest tail : List Char} {us : List StringUnit} {parts : List Part} {c : Char}
  {n : Nat}

/-- Every offset from `lo` up to `hi` belongs to a string. -/
def IsStringIn (contents : List Char) (lo hi : Nat) : Prop :=
  ∀ offset : Nat, lo ≤ offset → offset < hi → Token.kindAt (tokens contents) offset = .string

lemma IsStringIn.mono {contents : List Char} {lo hi hi' : Nat} (h : IsStringIn contents lo hi)
    (hle : hi' ≤ hi) : IsStringIn contents lo hi' :=
  fun offset hlo hhi => h offset hlo (Nat.lt_of_lt_of_le hhi hle)

/-! ### Where a scan has come to stand -/

lemma Scan.isStringIn (h : Scan front rest parts) (hlexeme : lexeme? rest = some (.string, n)) :
    IsStringIn (front ++ rest) front.length (front.length + n) :=
  fun _ hlo hhi =>
    kindAt_eq_of_mem (h.mem_tokens hlexeme) ⟨Int.ofNat_le.mpr hlo, Int.ofNat_lt.mpr hhi⟩

/-- A string goes on where a scan has come to stand only with a quote. -/
lemma Scan.eq_quote {hi : Nat} (h : Scan front (c :: rest) parts)
    (hstring : IsStringIn (front ++ c :: rest) front.length hi) (hhi : front.length < hi) :
    c = '"' := by
  have hkind := hstring front.length (Nat.le_refl _) hhi
  rw [h.kindAt_eq] at hkind
  cases hlexeme : lexeme? (c :: rest) with
  | none => simp [hlexeme] at hkind
  | some lexeme =>
    obtain ⟨kind, n⟩ := lexeme
    rw [hlexeme, Option.map_some, Option.getD_some] at hkind
    obtain rfl : kind = .string := hkind
    exact eq_quote_of_lexeme?_string hlexeme

/-- Quotes belong to strings wherever the first of them begins a lexeme. -/
lemma isStringIn_quotes (k : Nat) (h : Scan front (List.replicate k '"' ++ rest) parts) :
    IsStringIn (front ++ (List.replicate k '"' ++ rest)) front.length (front.length + k) := by
  induction k using Nat.strongRecOn generalizing front parts with
  | ind k ih =>
    cases k with
    | zero => exact fun offset hlo hhi => absurd hhi (Nat.not_lt.mpr hlo)
    | succ k =>
      obtain ⟨n, hlexeme⟩ : ∃ n, lexeme? (List.replicate (k + 1) '"' ++ rest) =
          some (.string, n) := ⟨_, lexeme?_quote _⟩
      have hpos := (lexeme?_bounds hlexeme).1
      intro offset hlo hhi
      by_cases hcovered : offset < front.length + n
      · exact h.isStringIn hlexeme offset hlo hcovered
      · -- The lexeme ends within the quotes, and the next one begins at a quote again.
        obtain ⟨j, hj⟩ : ∃ j, k + 1 = n + j := Nat.exists_eq_add_of_le (by omega)
        rw [hj, ← List.replicate_append_replicate, List.append_assoc] at h hlexeme ⊢
        have hnext := h.append (.single_token (by rw [hlexeme, List.length_replicate]))
        have hquotes := ih j (by omega) hnext offset
        rw [List.length_append, List.length_replicate, List.append_assoc] at hquotes
        exact hquotes (by omega) (by omega)

/-! ### The body of the string -/

lemma exists_first_not_inline (h : .escaped '\n' ∈ us) :
    ∃ body u back, us = body ++ u :: back ∧ (∀ v ∈ body, v.IsInline) ∧ ¬ u.IsInline := by
  induction us with
  | nil => cases h
  | cons u us ih =>
    by_cases hu : u.IsInline
    · rcases List.mem_cons.mp h with rfl | h
      · exact absurd rfl hu
      · obtain ⟨body, v, back, rfl, hbody, hv⟩ := ih h
        exact ⟨u :: body, v, back, rfl, List.forall_mem_cons.mpr ⟨hu, hbody⟩, hv⟩
    · exact ⟨[], u, us, rfl, by simp, hu⟩

/-- A unit that no line can hold ends the string in front of it, unless it closes the string. -/
lemma stringRest_text {u : StringUnit} (hu : ¬ u.IsInline) (hquote : u ≠ quote)
    (hplain : u ≠ .plain '\\') (cs : List Char) : stringRest (u.text ++ cs) = 0 := by
  cases u with
  | escaped c => exact (stringRest_escape c cs).trans (if_pos (Classical.not_not.mp hu))
  | plain c =>
    have hc : c ≠ '"' := fun heq => hquote (by rw [heq, quote])
    have hescape : c ≠ '\\' := fun heq => hplain (by rw [heq])
    have hline : c = '\n' := Classical.not_not.mp fun hline => hu ⟨hc, hescape, hline⟩
    exact (stringRest_cons hescape cs).trans ((if_neg hc).trans (if_pos hline))

/-- No multi-line string begins at a quote before a body in which a newline is escaped. -/
lemma lexeme?_quote_texts (h : IsMultilineBody us) (hescaped : .escaped '\n' ∈ us)
    (tail : List Char) :
    lexeme? ('"' :: (texts us ++ tail)) = some (.string, 1 + stringRest (texts us ++ tail)) := by
  have hmultiline : multilineString? ('"' :: (texts us ++ tail)) = none := by
    rw [multilineString?_cons]
    split_ifs with hquotes
    · obtain ⟨rest, hrest⟩ := exists_of_take_two_quotes hquotes.2
      obtain ⟨back, hback, rfl⟩ : ∃ back, us = quote :: quote :: back ∧
          texts back ++ tail = rest := by
        match us with
        | [u] =>
          obtain rfl : u = .escaped '\n' := (List.mem_singleton.mp hescaped).symm
          simp [text] at hrest
        | u :: v :: back =>
          rw [texts_cons, texts_cons, List.append_assoc, List.append_assoc] at hrest
          obtain ⟨hu, htail⟩ := eq_quote_of_text_append hrest
          obtain ⟨hv, hback⟩ := eq_quote_of_text_append htail
          exact ⟨back, by rw [hu, hv], hback⟩
      have hsuffix : back <:+ us := hback ▸ ⟨[quote, quote], rfl⟩
      have hmem : .escaped '\n' ∈ back := by simpa [hback, quote] using hescaped
      rw [hrest, List.drop_succ_cons, List.drop_succ_cons, List.drop_zero,
        multilineStringRest?_eq_none (h.of_infix hsuffix.isInfix) hmem, Option.map_none]
    · rfl
  rw [lexeme?_quote, hmultiline, Option.getD_none]

/-- Behind a string that belongs to a longer one, the next unit of the body is a quote again. -/
lemma Scan.exists_next_quote (lead : List Char)
    (h : Scan front (lead ++ (texts us ++ tail)) parts)
    (hlexeme : lexeme? (lead ++ (texts us ++ tail)) = some (.string, lead.length)) (hne : us ≠ [])
    (hstring : IsStringIn (front ++ (lead ++ (texts us ++ tail))) front.length
      (front.length + lead.length + (texts us).length)) :
    ∃ back parts', us = quote :: back ∧ Scan (front ++ lead) ('"' :: (texts back ++ tail)) parts' ∧
      IsStringIn (front ++ lead ++ '"' :: (texts back ++ tail)) (front ++ lead).length
        ((front ++ lead).length + (texts back).length + 1) := by
  obtain ⟨u, back, rfl⟩ := List.exists_cons_of_ne_nil hne
  obtain ⟨c, cs, htext⟩ : ∃ c cs, u.text = c :: cs :=
    List.exists_cons_of_ne_nil (List.ne_nil_of_length_pos u.text_length_pos)
  have hscan := h.append (.single_token hlexeme)
  rw [texts_cons, htext, List.append_assoc, List.cons_append] at hscan
  have hbehind : IsStringIn (front ++ lead ++ c :: (cs ++ (texts back ++ tail)))
      (front ++ lead).length ((front ++ lead).length + cs.length + (texts back).length + 1) := by
    intro offset hlo hhi
    rw [List.length_append] at hlo hhi
    rw [texts_cons, htext, List.length_append, List.length_cons, ← List.append_assoc,
      List.append_assoc (c :: cs), List.cons_append] at hstring
    exact hstring offset (by omega) (by omega)
  obtain rfl := hscan.eq_quote hbehind (by omega)
  have hquote : u.text ++ [] = '"' :: cs := by rw [List.append_nil, htext]
  obtain ⟨rfl, rfl⟩ := eq_quote_of_text_append hquote
  exact ⟨back, _, rfl, hscan, hbehind⟩

/-- The string that begins at a quote before the body ends in front of the escaped newline. -/
lemma exists_lexeme?_quote_texts (h : IsMultilineBody us) (hescaped : .escaped '\n' ∈ us)
    (tail : List Char) :
    ∃ lead back, '"' :: texts us = lead ++ texts back ∧ back <:+ us ∧ .escaped '\n' ∈ back ∧
      lexeme? (lead ++ (texts back ++ tail)) = some (.string, lead.length) := by
  have hlexeme := lexeme?_quote_texts h hescaped tail
  obtain ⟨body, u, back, rfl, hbody, hu⟩ := exists_first_not_inline hescaped
  rw [texts_append, List.append_assoc, stringRest_texts hbody] at hlexeme
  have hmem : .escaped '\n' ∈ u :: back := by
    rcases List.mem_append.mp hescaped with hmem | hmem
    · exact absurd rfl (hbody _ hmem)
    · exact hmem
  by_cases hquote : u = quote
  · subst hquote
    refine ⟨'"' :: (texts body ++ ['"']), back, by simp [quote, text], ⟨body ++ [quote], by simp⟩,
      by simpa [quote] using hmem, ?_⟩
    have hclosed : stringRest (texts (quote :: back) ++ tail) = 1 :=
      (stringRest_cons (by decide) _).trans (if_pos rfl)
    rw [hclosed] at hlexeme
    simpa [quote, text, Nat.add_comm] using hlexeme
  · refine ⟨'"' :: texts body, u :: back, by simp, List.suffix_append _ _, hmem, ?_⟩
    have hplain : u ≠ .plain '\\' := fun heq => h.no_backslash (by simp [heq])
    rw [texts_cons, List.append_assoc, stringRest_text hu hquote hplain, Nat.add_zero] at hlexeme
    simpa [Nat.add_comm] using hlexeme

/-- No newline is escaped in a body that is a string throughout. -/
theorem not_mem_of_isStringIn (hbody : IsMultilineBody us)
    (h : Scan front ('"' :: (texts us ++ tail)) parts)
    (hstring : IsStringIn (front ++ '"' :: (texts us ++ tail)) front.length
      (front.length + (texts us).length + 1)) : .escaped '\n' ∉ us := by
  induction hlen : us.length using Nat.strongRecOn generalizing us front parts with
  | ind k ih =>
    intro hescaped
    -- The string that begins here is followed by a quote, behind which the argument is repeated.
    obtain ⟨lead, rest, htexts, hsuffix, hmem, hlexeme⟩ :=
      exists_lexeme?_quote_texts hbody hescaped tail
    have hlength := congrArg List.length htexts
    rw [List.length_cons, List.length_append] at hlength
    rw [← List.cons_append, htexts, List.append_assoc] at h hstring
    obtain ⟨back, parts', rfl, hscan, hbehind⟩ :=
      h.exists_next_quote lead hlexeme (List.ne_nil_of_mem hmem) (hstring.mono (by omega))
    have hback : back <:+ us := (List.suffix_cons quote back).trans hsuffix
    have hshort : back.length < k := by
      have hle := hsuffix.length_le
      rwa [List.length_cons, hlen] at hle
    exact ih _ hshort (hbody.of_infix hback.isInfix) hscan hbehind rfl (by simpa [quote] using hmem)

/-! ### The string throughout -/

/-- The quotes at the end of a body. -/
lemma exists_eq_append_quotes (us : List StringUnit) :
    ∃ vs k, us = vs ++ List.replicate k quote ∧ vs.getLast? ≠ some quote := by
  induction us using List.reverseRecOn with
  | nil => exact ⟨[], 0, rfl, by simp⟩
  | append_singleton us u ih =>
    by_cases hu : u = quote
    · obtain ⟨vs, k, rfl, hvs⟩ := ih
      refine ⟨vs, k + 1, ?_, hvs⟩
      rw [List.replicate_succ', List.append_assoc, hu]
    · exact ⟨us ++ [u], 0, by simp, by simp [hu]⟩

lemma texts_replicate_quote (k : Nat) : texts (List.replicate k quote) = List.replicate k '"' := by
  induction k with
  | zero => rfl
  | succ k ih => rw [List.replicate_succ, texts_cons, ih, List.replicate_succ]; rfl

/-- A string between triple quotes without an escaped newline is a string throughout. -/
theorem isStringIn_multilineLiteral (hbody : IsMultilineBody us) (hescaped : .escaped '\n' ∉ us)
    (h : Scan front (multilineLiteral us ++ rest) parts) :
    IsStringIn (front ++ (multilineLiteral us ++ rest)) front.length
      (front.length + (multilineLiteral us).length) := by
  -- Quotes at the end of the body close the string early, and strings of their own follow it.
  obtain ⟨vs, k, rfl, hlast⟩ := exists_eq_append_quotes us
  have hliteral : multilineLiteral (vs ++ List.replicate k quote) =
      multilineLiteral vs ++ List.replicate k '"' := by
    have hquotes : List.replicate k '"' ++ tripleQuotes = tripleQuotes ++ List.replicate k '"' := by
      have htriple : tripleQuotes = List.replicate 3 '"' := rfl
      rw [htriple, List.replicate_append_replicate, List.replicate_append_replicate, Nat.add_comm]
    simp only [multilineLiteral, texts_append, texts_replicate_quote, List.append_assoc, hquotes]
  rw [hliteral, List.append_assoc] at h ⊢
  have hlexeme := lexeme?_multilineLiteral (hbody.of_infix (List.prefix_append vs _).isInfix) hlast
    (fun h => hescaped (List.mem_append_left _ h)) (List.replicate k '"' ++ rest)
  have hquotes := isStringIn_quotes k (h.append (.single_token hlexeme))
  intro offset hlo hhi
  by_cases hclosed : offset < front.length + (multilineLiteral vs).length
  · exact h.isStringIn hlexeme offset hlo hclosed
  · rw [List.length_append, List.length_replicate] at hhi
    rw [List.append_assoc, List.length_append] at hquotes
    exact hquotes offset (by omega) (by omega)

/-- A string between triple quotes is a string throughout exactly if no newline is escaped in it. -/
theorem isStringIn_multilineLiteral_iff (hbody : IsMultilineBody us)
    (h : Scan front (multilineLiteral us ++ rest) parts) :
    IsStringIn (front ++ (multilineLiteral us ++ rest)) front.length
      (front.length + (multilineLiteral us).length) ↔ .escaped '\n' ∉ us := by
  constructor
  · intro hstring hescaped
    have hliteral : multilineLiteral us ++ rest =
        ['"', '"'] ++ '"' :: (texts us ++ (tripleQuotes ++ rest)) := by
      simp [multilineLiteral, tripleQuotes]
    have hlength : (multilineLiteral us).length = (texts us).length + 6 := by
      simp [multilineLiteral, tripleQuotes]
    -- The first two quotes are a string on one line, and the third one begins another.
    have hlexeme : lexeme? (['"', '"'] ++ '"' :: (texts us ++ (tripleQuotes ++ rest))) =
        some (.string, 2) := by
      have hnone := multilineStringRest?_eq_none hbody hescaped (tripleQuotes ++ rest)
      rw [List.cons_append, lexeme?_quote]
      simp [multilineString?, hnone, stringRest]
    rw [hliteral] at h hstring
    rw [hlength] at hstring
    have hscan := h.append (.single_token hlexeme)
    refine not_mem_of_isStringIn hbody hscan ?_ hescaped
    intro offset hlo hhi
    rw [List.length_append, List.length_cons, List.length_singleton] at hlo hhi
    rw [List.append_assoc]
    exact hstring offset (by omega) (by omega)
  · exact fun hescaped => isStringIn_multilineLiteral hbody hescaped h

end ParenLint.Swift

namespace ParenLint

open ParenLint.Swift StringUnit

variable {before after : List Char} {us : List StringUnit}

/-- A string between triple quotes that begins where no token reaches over is a string throughout
exactly if no newline is escaped in it, and then no conditional that begins in it is reported or
rewritten. -/
theorem no_code_in_multilineLiteral_iff (hbody : IsMultilineBody us)
    (hbefore : ∀ t ∈ tokens (before ++ multilineLiteral us ++ after),
      ¬ (t.start < before.length ∧ before.length < t.stop)) :
    let contents := before ++ multilineLiteral us ++ after
    let kindAt := fun offset : Nat => Token.kindAt (tokens contents) offset
    let stop := (before ++ multilineLiteral us).length
    (IsStringIn contents before.length stop ↔ .escaped '\n' ∉ us) ∧
      (.escaped '\n' ∉ us → ∀ path,
        (∀ severity, ∀ v ∈ check (.ofContents contents path) kindAt severity,
          v.location.offset < before.length ∨ stop ≤ v.location.offset) ∧
        ∀ enablement failure corrections,
          (correct (.ofContents contents path) kindAt enablement failure).outcome =
              .ok corrections →
            ∀ c ∈ corrections, c.location.offset < before.length ∨ stop ≤ c.location.offset) := by
  intro contents kindAt stop
  obtain ⟨parts, hscan⟩ : ∃ parts, Scan before (multilineLiteral us ++ after) parts := by
    apply Scan.exists_scan before _ 0
    rw [← List.append_assoc, Nat.zero_add]
    exact hbefore
  have hiff : IsStringIn contents before.length stop ↔ .escaped '\n' ∉ us := by
    have hliteral := isStringIn_multilineLiteral_iff hbody hscan
    rwa [← List.append_assoc, ← List.length_append] at hliteral
  refine ⟨hiff, fun hescaped path => ?_⟩
  have houtside : ∀ offset : Nat, kindAt offset = .keyword →
      (offset : Int) < before.length ∨ (stop : Int) ≤ offset := by
    intro offset hkeyword
    by_contra hinside
    have hkind := hiff.mpr hescaped offset (by omega) (by omega)
    cases hkeyword.symm.trans hkind
  constructor
  · intro severity v hv
    rw [check_eq_flatMap] at hv
    obtain ⟨kind, -, hv⟩ := List.mem_flatMap.mp hv
    obtain ⟨offset, hoffset, rfl⟩ := List.mem_map.mp hv
    exact houtside offset (exists_of_mem_wrappedOffsets hoffset).1
  · intro enablement failure corrections hrun c hc
    obtain ⟨m, hm, hlocation⟩ := exists_rewritten_of_mem_corrections hrun hc
    rw [hlocation]
    exact houtside m.start (exists_wrappedIf_of_mem_rewritten hm).1

/-- Behind an escaped newline the text of a string is read as code. -/
theorem code_behind_escaped_newline :
    let before := "let s = ".toList
    let us := "\na ".toList.map .plain ++ .escaped '\n' :: "if (b) \x7b\n".toList.map .plain
    let contents := before ++ multilineLiteral us ++ ['\n']
    IsMultilineBody us ∧
      (∀ t ∈ tokens contents, ¬ (t.start < before.length ∧ before.length < t.stop)) ∧
      ¬ IsStringIn contents before.length (before ++ multilineLiteral us).length ∧
      controlStatement.violation .warning ((SourceFile.ofContents contents none).location 16) ∈
        check (.ofContents contents none)
          (fun offset : Nat => Token.kindAt (tokens contents) offset) .warning := by
  intro before us contents
  have hbody : IsMultilineBody us := ⟨by decide +kernel, by decide +kernel⟩
  have hbefore : ∀ t ∈ tokens contents, ¬ (t.start < before.length ∧ before.length < t.stop) := by
    decide +kernel
  refine ⟨hbody, hbefore, ?_, by decide +kernel⟩
  intro hstring
  exact (no_code_in_multilineLiteral_iff hbody hbefore).1.mp hstring (by decide +kernel)

end ParenLint
