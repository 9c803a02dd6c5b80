import ParenLint.Proofs.Statement.Search
import ParenLint.Proofs.Statement.Nesting
import ParenLint.Rule.Correct

/-!
# What a correction rewrites

Of the wrapped `if` conditions of a text those are rewritten whose span the enablement returns,
whatever else it returns. Each of them is a stretch of the text, they do not overlap, and the body
that is kept never closes the parenthesis before it.
-/

namespace ParenLint

open ParenLint.Swift ParenLint.Text

variable {kindAt : Nat → TokenKind} {enablement : Enablement} {contents : List Char}

/-- The matches that are rewritten in a text: wrapped conditions whose exact span the enablement
returns. -/
def rewritten (kindAt : Nat → TokenKind) (enablement : Enablement) (contents : List Char) :
    List Match :=
  let found := Pattern.correctable.wrapped kindAt contents
  found.filter (·.span ∈ enablement (found.map Match.span) controlStatement.identifier)

/-! ### The course of a correction -/

section Course

variable {file : SourceFile} {failure : Option WriteFailure}

/-- Nothing is written and nothing reported if nothing is to be rewritten. -/
lemma correct_of_eq_nil (h : rewritten kindAt enablement file.contents = []) :
    (correct file kindAt enablement failure).written = [] ∧
      (correct file kindAt enablement failure).file = file ∧
      (correct file kindAt enablement failure).outcome = .ok [] := by
  rw [rewritten] at h
  rw [correct]
  split_ifs with hfound
  · exact ⟨rfl, rfl, rfl⟩
  · simp [CorrectionRun.written, h]

lemma wrapped_ne_nil (h : rewritten kindAt enablement contents ≠ []) :
    Pattern.correctable.wrapped kindAt contents ≠ [] := by
  intro hnil
  simp [rewritten, hnil] at h

/-- Otherwise the text with all matches unwrapped is handed over once, and the corrections are
reported if it can be stored. -/
lemma correct_of_ne_nil (h : rewritten kindAt enablement file.contents ≠ []) :
    (correct file kindAt enablement failure).written =
        [unwrapAll (rewritten kindAt enablement file.contents) file.contents] ∧
      (correct file kindAt enablement failure).outcome =
        match failure with
        | some e => .error e
        | none => .ok ((rewritten kindAt enablement file.contents).reverse.map fun m =>
            controlStatement.correction (file.location m.start)) := by
  have hfound := wrapped_ne_nil h
  rw [rewritten] at h ⊢
  simp only [correct, List.isEmpty_iff, hfound, h, if_false]
  cases failure <;> exact ⟨rfl, rfl⟩

/-- A write that succeeds leaves the text with all matches unwrapped. -/
lemma file_correct_of_ne_nil (h : rewritten kindAt enablement file.contents ≠ []) :
    (correct file kindAt enablement none).file =
      { file with
        contents := unwrapAll (rewritten kindAt enablement file.contents) file.contents
        lineStarts := lineStarts (unwrapAll (rewritten kindAt enablement file.contents)
          file.contents) } := by
  have hfound := wrapped_ne_nil h
  rw [rewritten] at h ⊢
  simp only [correct, List.isEmpty_iff, hfound, h, if_false, SourceFile.write]

lemma contents_correct (file : SourceFile) (kindAt : Nat → TokenKind) (enablement : Enablement) :
    (correct file kindAt enablement none).file.contents =
      unwrapAll (rewritten kindAt enablement file.contents) file.contents := by
  by_cases hnil : rewritten kindAt enablement file.contents = []
  · rw [(correct_of_eq_nil hnil).2.1, hnil]
    rfl
  · rw [file_correct_of_ne_nil hnil]

/-- A write that fails leaves the file as it was. -/
lemma file_correct_of_failure (file : SourceFile) (kindAt : Nat → TokenKind)
    (enablement : Enablement) (e : WriteFailure) :
    (correct file kindAt enablement (some e)).file = file := by
  simp only [correct, SourceFile.write]
  split_ifs <;> rfl

end Course

/-! ### The matches that are rewritten -/

/-- The text has the match `m` of a wrapped `if` between `before` and `after`; its parentheses
enclose `body`, which is recorded. -/
structure WrappedIf (contents : List Char) (m : Match)
    (before gap body gap' after : List Char) : Prop where
  contents_eq : contents = before ++ m.text ++ after
  text_eq : m.text = "if".toList ++ gap ++ '(' :: body ++ ')' :: gap' ++ ['{']
  start_eq : m.start = before.length
  captured_eq : m.captured = some body
  gap_blank : ∀ c ∈ gap, isBlank c = true
  gap'_blank : ∀ c ∈ gap', isBlank c = true

/-- Offset of the first opening parenthesis of a match. -/
def Match.opening (m : Match) : Nat := m.start + (m.text.takeWhile (· ≠ '(')).length

/-- Offset of the last closing parenthesis of a match. -/
def Match.closing (m : Match) : Nat := m.stop - 1 - (m.text.reverse.takeWhile (· ≠ ')')).length

namespace WrappedIf

variable {m : Match} {before gap body gap' after : List Char}

lemma stop_eq (h : WrappedIf contents m before gap body gap' after) :
    m.stop = before.length + gap.length + body.length + gap'.length + 5 := by
  simp [Match.stop, Match.length, h.text_eq, h.start_eq]
  omega

lemma stop_le_length (h : WrappedIf contents m before gap body gap' after) :
    m.stop ≤ contents.length := by
  simp only [h.contents_eq, Match.stop, Match.length, h.start_eq, List.length_append]
  omega

lemma opening_eq (h : WrappedIf contents m before gap body gap' after) :
    m.opening = before.length + gap.length + 2 := by
  have hlead : '(' ∉ "if".toList ++ gap := by
    simpa using not_mem_of_isBlank h.gap_blank (c := '(') rfl
  rw [Match.opening, h.text_eq, h.start_eq]
  simp only [List.append_assoc, List.cons_append]
  rw [← List.append_assoc, takeWhile_ne_append_cons hlead]
  simp
  omega

lemma closing_eq (h : WrappedIf contents m before gap body gap' after) :
    m.closing = m.opening + 1 + body.length := by
  have htail : ')' ∉ '{' :: gap'.reverse := by
    simpa using not_mem_of_isBlank h.gap'_blank (c := ')') rfl
  have hreverse : m.text.reverse =
      ('{' :: gap'.reverse) ++ ')' :: ("if".toList ++ gap ++ '(' :: body).reverse := by
    simp [h.text_eq]
  rw [Match.closing, hreverse, takeWhile_ne_append_cons htail, h.stop_eq, h.opening_eq]
  simp
  omega

/-- Unwrapping takes out the first and the last parenthesis of the match, and leaves one blank in
front of the condition and one behind it. -/
lemma unwrap_eq (h : WrappedIf contents m before gap body gap' after) :
    unwrap m contents = before ++ "if ".toList ++ body ++ " \x7b".toList ++ after := by
  have htake : contents.take m.start = before := by
    rw [h.contents_eq, h.start_eq, List.append_assoc, List.take_left]
  have hdrop : contents.drop m.stop = after := by
    rw [h.contents_eq, Match.stop, h.start_eq, Match.length, ← List.length_append, List.drop_left]
  rw [unwrap, htake, hdrop, h.captured_eq, Option.getD_some]

end WrappedIf

/-- A wrapped condition that can be corrected begins with a keyword, and its body does not close the
parenthesis before it. -/
theorem exists_wraps_of_mem_wrapped {m : Match}
    (hm : m ∈ Pattern.correctable.wrapped kindAt contents) :
    kindAt m.start = .keyword ∧ ∃ before gap body ending after,
      contents = before ++ m.text ++ after ∧ m.start = before.length ∧ m.captured = some body ∧
        Wraps .if gap body ending m.text ∧ StaysAbove 0 body := by
  obtain ⟨hmatch, hwrapped⟩ := Pattern.mem_wrapped.mp hm
  rw [Pattern.correctable_eq_conditional] at hmatch
  obtain ⟨before, after, hcontents, hstart, hat⟩ := Pattern.exists_of_mem_matchesFrom
    (Pattern.isProductive_conditional .if true) hmatch
  obtain ⟨-, hkind, -, gap, body, ending, hwraps, hcaptured⟩ :=
    Pattern.match?_conditional_eq_some_iff.mp hat
  have hkeyword := m.kind_of_isFalsePositive_eq_false hwrapped
  rw [Match.isFalsePositive, hkeyword, hwraps.isFalsePositive_eq_false_iff] at hwrapped
  exact ⟨hkind ▸ hkeyword, before, gap, body, ending, after, hcontents, by simpa using hstart,
    hcaptured, hwraps, hwrapped⟩

/-- A match that is rewritten begins with a keyword and is a wrapped `if`. Its body does not close
the parenthesis before it. -/
theorem exists_wrappedIf_of_mem_rewritten {m : Match}
    (hm : m ∈ rewritten kindAt enablement contents) :
    kindAt m.start = .keyword ∧ ∃ before gap body gap' after,
      WrappedIf contents m before gap body gap' after ∧ StaysAbove 0 body := by
  obtain ⟨hkeyword, before, gap, body, ending, after, hcontents, hstart, hcaptured, hwraps,
    hbody⟩ := exists_wraps_of_mem_wrapped (List.mem_of_mem_filter hm)
  refine ⟨hkeyword, before, gap, body, ?_⟩
  cases hwraps.ending with
  | @brace _ gap' _ hgap' =>
    refine ⟨gap', after, ⟨hcontents, ?_, hstart, hcaptured, hwraps.gap_blank, hgap'⟩, hbody⟩
    simpa [StatementKind.keyword] using hwraps.text_eq

lemma start_lt_stop_of_mem_rewritten {m : Match}
    (hm : m ∈ rewritten kindAt enablement contents) : m.start < m.stop := by
  obtain ⟨-, before, gap, body, gap', after, h, -⟩ := exists_wrappedIf_of_mem_rewritten hm
  rw [h.start_eq, h.stop_eq]
  omega

lemma stop_le_length_of_mem_rewritten {m : Match}
    (hm : m ∈ rewritten kindAt enablement contents) : m.stop ≤ contents.length := by
  obtain ⟨-, before, gap, body, gap', after, h, -⟩ := exists_wrappedIf_of_mem_rewritten hm
  exact h.stop_le_length

/-- The matches that are rewritten do not overlap. -/
lemma pairwise_rewritten :
    (rewritten kindAt enablement contents).Pairwise fun m n => m.stop ≤ n.start :=
  ((Pattern.pairwise_matchesFrom (Pattern.isProductive_conditional .if true)).filter _).filter _

/-- Each correction stands for a match that is rewritten. -/
lemma exists_rewritten_of_mem_corrections {file : SourceFile} {kindAt : Nat → TokenKind}
    {enablement : Enablement} {failure : Option WriteFailure} {corrections : List Correction}
    (hrun : (correct file kindAt enablement failure).outcome = .ok corrections) {c : Correction}
    (hc : c ∈ corrections) :
    ∃ m ∈ rewritten kindAt enablement file.contents, c.location = file.location m.start := by
  by_cases hnil : rewritten kindAt enablement file.contents = []
  · rw [(correct_of_eq_nil hnil).2.2, Except.ok.injEq] at hrun
    simp [← hrun] at hc
  · rw [(correct_of_ne_nil hnil).2] at hrun
    cases failure with
    | some e => simp at hrun
    | none =>
      rw [Except.ok.injEq] at hrun
      rw [← hrun] at hc
      obtain ⟨m, hm, rfl⟩ := List.mem_map.mp hc
      exact ⟨m, List.mem_reverse.mp hm, rfl⟩

end ParenLint
