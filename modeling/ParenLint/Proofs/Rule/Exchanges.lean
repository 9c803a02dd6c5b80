import ParenLint.Proofs.Rule.Rewriting
import ParenLint.Swift.Lexeme

/-!
# What a correction asks and writes

A correction that has found matches asks once which of them it may act on. If the answer has the
span of one of them, one text is handed over to be stored, and a failure to store it is passed on
with the file as it was.
-/

namespace ParenLint

open ParenLint.Swift

variable {kindAt : Nat → TokenKind} {enablement : Enablement} {contents : List Char}

/-- Something is rewritten exactly if the span of a match is among those returned. -/
lemma rewritten_ne_nil_iff : rewritten kindAt enablement contents ≠ [] ↔
    ∃ m ∈ Pattern.correctable.wrapped kindAt contents, m.span ∈ enablement
      ((Pattern.correctable.wrapped kindAt contents).map Match.span)
      controlStatement.identifier := by
  simp [rewritten]

/-- The matches are found in the order of the text. -/
lemma pairwise_span_wrapped : ((Pattern.correctable.wrapped kindAt contents).map
    Match.span).Pairwise fun s t => s.stop ≤ t.start := by
  have hmatches : (Pattern.correctable.matches kindAt contents).Pairwise
      fun m n => m.stop ≤ n.start :=
    Pattern.pairwise_matchesFrom (Pattern.isProductive_conditional .if true)
  rw [List.pairwise_map]
  exact (hmatches.filter _).imp Int.ofNat_le.mpr

section

variable (file : SourceFile) (kindAt : Nat → TokenKind) (enablement : Enablement)
  (failure : Option WriteFailure)

/-- What is asked is asked before anything is written. -/
lemma exchanges_correct :
    (correct file kindAt enablement failure).exchanges =
      (correct file kindAt enablement failure).asked.map (fun asked => .asked asked.1 asked.2) ++
        (correct file kindAt enablement failure).written.map .wrote := by
  simp only [CorrectionRun.asked, CorrectionRun.written, correct]
  split_ifs
  · rfl
  · rfl
  · cases failure <;> rfl

lemma asked_correct :
    (correct file kindAt enablement failure).asked =
      if Pattern.correctable.wrapped kindAt file.contents = [] then []
      else [((Pattern.correctable.wrapped kindAt file.contents).map Match.span,
        controlStatement.identifier)] := by
  simp only [CorrectionRun.asked, correct, List.isEmpty_iff]
  split_ifs
  · rfl
  · rfl
  · cases failure <;> rfl

lemma written_correct :
    (correct file kindAt enablement failure).written =
      if rewritten kindAt enablement file.contents = [] then []
      else [unwrapAll (rewritten kindAt enablement file.contents) file.contents] := by
  split_ifs with hnil
  · exact (correct_of_eq_nil hnil).1
  · exact (correct_of_ne_nil hnil).1

end

/-- A correction asks at most once, for all its matches in their order, and before it writes. It
writes once if the span of a match is returned, and otherwise never. It fails exactly if a text is
handed over that cannot be stored, and then the file, with all its locations, is as it was. -/
theorem correct_asks_and_writes_once (file : SourceFile) (kindAt : Nat → TokenKind)
    (enablement : Enablement) (failure : Option WriteFailure) :
    let found := Pattern.correctable.wrapped kindAt file.contents
    let spans := found.map Match.span
    let kept := enablement spans controlStatement.identifier
    let run := correct file kindAt enablement failure
    spans.Pairwise (fun s t => s.stop ≤ t.start) ∧
      run.exchanges = run.asked.map (fun asked => .asked asked.1 asked.2) ++
        run.written.map .wrote ∧
      run.asked = (if found = [] then [] else [(spans, controlStatement.identifier)]) ∧
      run.written.length = (if ∃ m ∈ found, m.span ∈ kept then 1 else 0) ∧
      (∀ e, run.outcome = .error e ↔ failure = some e ∧ ∃ m ∈ found, m.span ∈ kept) ∧
      (failure ≠ none → run.file = file) := by
  intro found spans kept run
  have hkept : (∃ m ∈ found, m.span ∈ kept) ↔ rewritten kindAt enablement file.contents ≠ [] :=
    rewritten_ne_nil_iff.symm
  have hwritten : run.written = _ := written_correct file kindAt enablement failure
  refine ⟨pairwise_span_wrapped, exchanges_correct file kindAt enablement failure,
    asked_correct file kindAt enablement failure, ?_, ?_, ?_⟩
  · rw [hwritten]
    simp only [hkept, ne_eq, ite_not]
    split_ifs <;> rfl
  · intro e
    rw [hkept]
    by_cases hnil : rewritten kindAt enablement file.contents = []
    · have houtcome : run.outcome = .ok [] := (correct_of_eq_nil hnil).2.2
      simp [houtcome, hnil]
    · have houtcome : run.outcome = _ := (correct_of_ne_nil hnil).2
      rw [houtcome]
      cases failure <;> simp [hnil]
  · intro hfailure
    obtain ⟨e, rfl⟩ := Option.ne_none_iff_exists'.mp hfailure
    exact file_correct_of_failure file kindAt enablement e

/-- Of three matches two are returned, in the other order, and the text cannot be stored. -/
theorem correct_asks_and_writes_once_refused :
    let file := SourceFile.ofContents "if (a) \x7b\nif (b)\n\x7b if (c) \x7b".toList none
    let kindAt := fun o : Nat => Token.kindAt (tokens file.contents) o
    let enablement : Enablement := fun _ _ => [⟨18, 26⟩, ⟨3, 4⟩, ⟨0, 8⟩]
    let failure : WriteFailure := ⟨"disk full"⟩
    let run := correct file kindAt enablement (some failure)
    run.asked = [([⟨0, 8⟩, ⟨9, 17⟩, ⟨18, 26⟩], "control_statement")] ∧ run.written.length = 1 ∧
      run.outcome = .error failure ∧ run.file = file := by
  intro file kindAt enablement failure run
  obtain ⟨-, -, hasked, hwritten, houtcome, hfile⟩ :=
    correct_asks_and_writes_once file kindAt enablement (some failure)
  exact ⟨hasked.trans (by decide +kernel), hwritten.trans (if_pos (by decide +kernel)),
    (houtcome failure).mpr ⟨rfl, by decide +kernel⟩, hfile (by simp)⟩

end ParenLint
