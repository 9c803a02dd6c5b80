import ParenLint.Proofs.Rule.Substitution

/-!
# Parentheses across a correction

Unwrapping a match takes the two parentheses around its body out of the text and leaves all others
as they are. The body does not close the first of them, so a balanced text stays balanced. The text
has one opening parenthesis less for each match and is never longer.
-/

namespace ParenLint

open ParenLint.Swift ParenLint.Text

variable {file : SourceFile} {kindAt : Nat → TokenKind} {enablement : Enablement}

/-! ### One match -/

namespace WrappedIf

variable {contents : List Char} {m : Match} {before gap body gap' after : List Char}

lemma parens_contents (h : WrappedIf contents m before gap body gap' after) :
    parens contents = parens before ++ '(' :: parens body ++ ')' :: parens after := by
  have hgap : parens gap = [] :=
    parens_eq_nil (not_mem_of_isBlank h.gap_blank rfl) (not_mem_of_isBlank h.gap_blank rfl)
  have hgap' : parens gap' = [] :=
    parens_eq_nil (not_mem_of_isBlank h.gap'_blank rfl) (not_mem_of_isBlank h.gap'_blank rfl)
  simp [h.contents_eq, h.text_eq, hgap, hgap']

lemma parens_unwrap (h : WrappedIf contents m before gap body gap' after) :
    parens (unwrap m contents) = parens before ++ parens body ++ parens after := by
  simp [h.unwrap_eq]

lemma balanced_unwrap (h : WrappedIf contents m before gap body gap' after)
    (hbody : StaysAbove 0 body) (hbalanced : Balanced contents) :
    Balanced (unwrap m contents) := by
  rw [← balanced_parens_iff, h.parens_contents] at hbalanced
  rw [← balanced_parens_iff, h.parens_unwrap]
  exact hbalanced.of_parenthesized (staysAbove_parens_iff.mpr hbody)

lemma count_unwrap (h : WrappedIf contents m before gap body gap' after) :
    (unwrap m contents).count '(' + 1 = contents.count '(' := by
  rw [← count_openParen_parens, h.parens_unwrap, ← count_openParen_parens contents,
    h.parens_contents]
  simp
  omega

lemma length_unwrap_le (h : WrappedIf contents m before gap body gap' after) :
    (unwrap m contents).length ≤ contents.length := by
  rw [h.unwrap_eq, h.contents_eq, h.text_eq]
  simp
  omega

end WrappedIf

/-! ### All matches -/

/-- A balanced text is balanced after each correction, whatever its characters are taken for and
whichever matches are enabled, and so is each text that is handed over to be stored. -/
theorem correct_keeps_balance {failure : Option WriteFailure} (h : Balanced file.contents) :
    Balanced (correct file kindAt enablement failure).file.contents ∧
      ∀ contents ∈ (correct file kindAt enablement failure).written, Balanced contents := by
  have hall : Balanced (unwrapAll (rewritten kindAt enablement file.contents) file.contents) :=
    unwrapAll_induction (motive := fun _ text => Balanced text) h
      (fun m ms text before gap body gap' after hm hbody => hm.balanced_unwrap hbody)
      pairwise_rewritten fun m hm => (exists_wrappedIf_of_mem_rewritten hm).2
  constructor
  · cases failure with
    | some e => rwa [file_correct_of_failure]
    | none => rwa [contents_correct]
  · intro contents hcontents
    by_cases hnil : rewritten kindAt enablement file.contents = []
    · rw [(correct_of_eq_nil hnil).1] at hcontents
      cases hcontents
    · rw [(correct_of_ne_nil hnil).1, List.mem_singleton] at hcontents
      rwa [hcontents]

/-- The text of the first match is not balanced: its string literal opens a parenthesis that the
literal behind it closes. -/
theorem correct_keeps_balance_of_literals :
    let file := SourceFile.ofContents
      "if (s == \"(\") \x7b t = \")\" \x7d\nif ((a) && f(b))\n\x7b".toList none
    let run := correct file (fun o => Token.kindAt (tokens file.contents) o) (fun spans _ => spans)
      none
    let contents := "if s == \"(\" \x7b t = \")\" \x7d\nif (a) && f(b) \x7b".toList
    Balanced file.contents ∧ ¬ Balanced "if (s == \"(\") \x7b".toList ∧
      run.written = [contents] ∧ run.file.contents = contents ∧ Balanced contents := by
  intro file run contents
  have hbalanced : Balanced file.contents := by decide +kernel
  have hfile : run.file.contents = contents := by decide +kernel
  refine ⟨hbalanced, by decide +kernel, by decide +kernel, hfile, ?_⟩
  exact hfile ▸ (correct_keeps_balance hbalanced).1

/-- Unwrapping takes away one opening parenthesis for each match and never adds to a text. -/
theorem count_unwrapAll_rewritten (contents : List Char) :
    (unwrapAll (rewritten kindAt enablement contents) contents).count '(' +
        (rewritten kindAt enablement contents).length = contents.count '(' ∧
      (unwrapAll (rewritten kindAt enablement contents) contents).length ≤ contents.length := by
  refine unwrapAll_induction (motive := fun ms text => text.count '(' + ms.length =
      contents.count '(' ∧ text.length ≤ contents.length) ⟨rfl, Nat.le_refl _⟩ ?_
    pairwise_rewritten fun m hm => (exists_wrappedIf_of_mem_rewritten hm).2
  rintro m ms text before gap body gap' after hm - ⟨hcount, hlength⟩
  constructor
  · rw [← hcount, ← hm.count_unwrap, List.length_cons]
    omega
  · exact Nat.le_trans hm.length_unwrap_le hlength

end ParenLint
