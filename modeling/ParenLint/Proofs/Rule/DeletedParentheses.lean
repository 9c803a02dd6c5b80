import ParenLint.Proofs.Rule.Rewriting
import ParenLint.Proofs.Statement.Pairing
import ParenLint.Swift.Lexeme

/-!
# The parentheses that unwrapping deletes

The opening parenthesis that a correction deletes is still open where it deletes the closing one.
The two are partners exactly when the condition between them is balanced. Where it is not, as when a
closure behind a call ends the match early, the one that is deleted last is the partner of another.
-/

namespace ParenLint

open ParenLint.Swift

namespace WrappedIf

variable {contents : List Char} {m : Match} {before gap body gap' after : List Char}

/-- The body of a match stands between the two parentheses that unwrapping deletes. -/
lemma exists_lead (h : WrappedIf contents m before gap body gap' after) :
    ∃ lead rest, contents = lead ++ '(' :: body ++ ')' :: rest ∧ m.opening = lead.length := by
  refine ⟨before ++ "if".toList ++ gap, gap' ++ '\x7b' :: after, ?_, ?_⟩
  · simp [h.contents_eq, h.text_eq]
  · simp [h.opening_eq]
    omega

/-- The pairing of the parentheses of a match in the text around it. -/
lemma partners_iff (h : WrappedIf contents m before gap body gap' after) (hbody : StaysAbove 0 body)
    {j : Nat} (hj : j ≤ m.closing) :
    Partners contents m.opening j ↔ j = m.closing ∧ Balanced body := by
  obtain ⟨lead, rest, rfl, hopening⟩ := h.exists_lead
  rw [h.closing_eq, hopening] at hj ⊢
  exact partners_iff_balanced hbody hj

lemma getElem?_opening (h : WrappedIf contents m before gap body gap' after) :
    contents[m.opening]? = some '(' := by
  obtain ⟨lead, rest, hcontents, hopening⟩ := h.exists_lead
  rw [hopening, hcontents, List.append_assoc]
  simp

lemma getElem?_closing (h : WrappedIf contents m before gap body gap' after) :
    contents[m.closing]? = some ')' := by
  obtain ⟨lead, rest, hcontents, hopening⟩ := h.exists_lead
  have hclosing : m.closing = (lead ++ '(' :: body).length := by
    rw [h.closing_eq, hopening, List.length_append, List.length_cons]
    omega
  rw [hclosing, hcontents, List.getElem?_append_right (Nat.le_refl _)]
  simp

end WrappedIf

/-- Of the two parentheses that a correction deletes, the first is still open at the second: it is
the partner of no earlier one, and of the second exactly if the condition that is kept is
balanced. -/
theorem deleted_parentheses_partners_iff {file : SourceFile} {kindAt : Nat → TokenKind}
    {enablement : Enablement} {failure : Option WriteFailure} {corrections : List Correction}
    (hrun : (correct file kindAt enablement failure).outcome = .ok corrections) {c : Correction}
    (hc : c ∈ corrections) :
    ∃ m ∈ rewritten kindAt enablement file.contents, ∃ before condition after,
      c.location = file.location m.start ∧ m.start = before.length ∧
      m.captured = some condition ∧
      unwrap m file.contents = before ++ "if ".toList ++ condition ++ " \x7b".toList ++ after ∧
      file.contents[m.opening]? = some '(' ∧ file.contents[m.closing]? = some ')' ∧
      m.closing = m.opening + 1 + condition.length ∧ StaysAbove 0 condition ∧
      (∀ j < m.closing, ¬ Partners file.contents m.opening j) ∧
      (Partners file.contents m.opening m.closing ↔ Balanced condition) := by
  obtain ⟨m, hm, hlocation⟩ := exists_rewritten_of_mem_corrections hrun hc
  obtain ⟨-, before, gap, body, gap', after, h, hbody⟩ := exists_wrappedIf_of_mem_rewritten hm
  refine ⟨m, hm, before, body, after, hlocation, h.start_eq, h.captured_eq, h.unwrap_eq,
    h.getElem?_opening, h.getElem?_closing, h.closing_eq, hbody, ?_, ?_⟩
  · intro j hj hpartners
    have heq := ((h.partners_iff hbody (Nat.le_of_lt hj)).mp hpartners).1
    omega
  · simpa using h.partners_iff hbody (Nat.le_refl m.closing)

/-- The first opening brace is that of a closure. What is deleted last is the parenthesis that closes
the call, and the one that is deleted first loses its partner behind the closure. -/
theorem deleted_parentheses_not_partners :
    let file := SourceFile.ofContents "if (f() \x7b 1 \x7d) \x7b".toList none
    let kindAt := fun o : Nat => Token.kindAt (tokens file.contents) o
    let run := correct file kindAt (fun spans _ => spans) none
    let c := controlStatement.correction ⟨none, 0, 1, 1⟩
    run.outcome = .ok [c] ∧ c ∈ [c] ∧ run.written = ["if f( \x7b 1 \x7d) \x7b".toList] ∧
      ∃ m ∈ rewritten kindAt (fun spans _ => spans) file.contents,
        m.captured = some "f(".toList ∧ ¬ Partners file.contents m.opening m.closing ∧
        Partners file.contents 5 m.closing ∧ Partners file.contents m.opening 13 := by
  intro file kindAt run c
  have hrun : run.outcome = .ok [c] := by decide +kernel
  have hc : c ∈ [c] := List.mem_singleton_self c
  have hrewritten : rewritten kindAt (fun spans _ => spans) file.contents =
      [⟨0, "if (f() \x7b".toList, .keyword, some "f(".toList⟩] := by decide +kernel
  obtain ⟨m, hm, before, condition, after, -, -, hcaptured, -, -, -, -, -, -, hiff⟩ :=
    deleted_parentheses_partners_iff hrun hc
  have heq := hm
  rw [hrewritten, List.mem_singleton] at heq
  subst heq
  obtain rfl : "f(".toList = condition := Option.some.inj hcaptured
  have hunbalanced : ¬ Balanced "f(".toList := fun h => absurd h.count_eq (by decide)
  exact ⟨hrun, hc, by decide +kernel, _, hm, rfl, mt hiff.mp hunbalanced,
    (by decide : Partners file.contents 5 6), (by decide : Partners file.contents 3 13)⟩

end ParenLint
