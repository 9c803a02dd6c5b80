import ParenLint.Proofs.Statement.Shadowing
import ParenLint.Proofs.Swift.TokenStream
import ParenLint.Rule.Check

/-!
# Which wrapped conditionals are reported

A wrapped conditional that begins with a keyword is reported, unless an earlier text opens one of
the same kind and reaches over it. That earlier text may be a comment.
-/

namespace ParenLint

open ParenLint.Swift

variable {kind : StatementKind} {gap body ending text : List Char}

/-- No two keywords begin with the same letter. -/
lemma StatementKind.eq_of_keyword_append_eq {kind kind' : StatementKind} {rest rest' : List Char}
    (h : kind.keyword.toList ++ rest = kind'.keyword.toList ++ rest') : kind = kind' := by
  have hhead : kind.keyword.toList.head? = kind'.keyword.toList.head? := by
    obtain ⟨k, ks, hkeyword, -⟩ := kind.exists_keyword_eq_cons
    obtain ⟨k', ks', hkeyword', -⟩ := kind'.exists_keyword_eq_cons
    rw [hkeyword, hkeyword'] at h ⊢
    exact congrArg some (List.cons.inj h).1
  revert hhead
  cases kind <;> cases kind' <;> decide

/-- A violation stands for a match of the kind of statement that the text there begins with. -/
lemma violation_mem_check_iff (before after : List Char) (path : Option String)
    (kindAt : Nat → TokenKind) (severity : Severity) (h : Wraps kind gap body ending text)
    (hwrapped : isFalsePositive text (some (kindAt before.length)) = false) :
    let file := SourceFile.ofContents (before ++ text ++ after) path
    controlStatement.violation severity (file.location before.length) ∈
        check file kindAt severity ↔
      ∃ m ∈ (Pattern.statement kind).matches kindAt file.contents, m.start = before.length := by
  intro file
  simp only [check, List.mem_flatMap, List.mem_map, Pattern.mem_wrapped]
  have hfront : ∀ {before' text' after' : List Char}, before'.length = before.length →
      before ++ text ++ after = before' ++ text' ++ after' → text ++ after = text' ++ after' := by
    intro before' text' after' hlength heq
    rw [List.append_assoc, List.append_assoc] at heq
    exact (List.append_inj heq hlength.symm).2
  constructor
  · rintro ⟨kind', -, m, ⟨hm, -⟩, hlocation⟩
    have hstart : m.start = before.length :=
      Int.ofNat.inj (congrArg (fun v : Violation => v.location.offset) hlocation)
    obtain ⟨before', gap', body', ending', after', heq, hstart', -, h'⟩ :=
      Pattern.exists_wraps_of_mem_matches hm
    have htext := hfront (hstart'.symm.trans hstart) heq
    simp only [h.text_eq, h'.text_eq, List.append_assoc] at htext
    obtain rfl := StatementKind.eq_of_keyword_append_eq htext
    exact ⟨m, hm, hstart⟩
  · rintro ⟨m, hm, hstart⟩
    obtain ⟨before', gap', body', ending', after', heq, hstart', hkind, h'⟩ :=
      Pattern.exists_wraps_of_mem_matches hm
    have htext := h.text_unique h' (hfront (hstart'.symm.trans hstart) heq)
    refine ⟨kind, by cases kind <;> decide, m, ⟨hm, ?_⟩, by rw [hstart]⟩
    rw [Match.isFalsePositive, hkind, hstart, ← htext, hwrapped]

/-- A wrapped conditional that begins with a keyword is reported exactly if no stretch of the text
just before it opens another one of its kind, which would reach over it. -/
theorem reported_iff_not_opens {contents after : List Char} {path : Option String}
    {severity : Severity} {t : Token} (ht : t ∈ tokens contents) (hkeyword : t.kind = .keyword)
    (htext : contents.drop t.start = text ++ after) (hwraps : Wraps kind gap body ending text)
    (hwrapped : isFalsePositive text (some .keyword) = false) :
    controlStatement.violation severity ((SourceFile.ofContents contents path).location t.start) ∈
        check (.ofContents contents path) (fun o => Token.kindAt (tokens contents) o) severity ↔
      ¬ ∃ hidden, hidden <:+ contents.take t.start ∧ Opens kind hidden := by
  have hkind : Token.kindAt (tokens contents) t.start = .keyword := by
    rw [kindAt_eq_of_mem ht (covers_start_of_mem_tokensFrom ht), hkeyword]
  obtain ⟨before, hcontents, hbefore⟩ : ∃ before, contents = before ++ text ++ after ∧
      before.length = t.start := by
    refine ⟨contents.take t.start, ?_, ?_⟩
    · rw [List.append_assoc, ← htext, List.take_append_drop]
    · have hlength := congrArg List.length htext
      simp only [hwraps.text_eq, List.length_drop, List.length_append, List.length_cons] at hlength
      rw [List.length_take]
      omega
  have htake : contents.take t.start = before := by
    rw [hcontents, ← hbefore, List.append_assoc, List.take_left]
  have hcheck := violation_mem_check_iff before after path
    (fun o => Token.kindAt (tokens contents) o) severity hwraps
    (by simpa only [hbefore, hkind] using hwrapped)
  rw [htake, ← Pattern.exists_match_iff_not_opens hwraps, ← hbefore]
  rw [← hcontents] at hcheck ⊢
  exact hcheck

/-- The comment opens a conditional that reaches over the wrapped one on the next line. -/
theorem not_reported_behind_comment :
    let contents := "// if (\nif (a) \x7b".toList
    let t : Token := ⟨8, 2, .keyword⟩
    t ∈ tokens contents ∧ t.kind = .keyword ∧
      contents.drop t.start = "if (a) \x7b".toList ++ [] ∧
      Wraps .if [' '] ['a'] [' ', '\x7b'] "if (a) \x7b".toList ∧
      isFalsePositive "if (a) \x7b".toList (some .keyword) = false ∧
      controlStatement.violation .warning
          ((SourceFile.ofContents contents none).location t.start) ∉
        check (.ofContents contents none) (fun o => Token.kindAt (tokens contents) o) .warning := by
  intro contents t
  have ht : t ∈ tokens contents := by decide +kernel
  have htext : contents.drop t.start = "if (a) \x7b".toList ++ [] := by decide
  have hwraps : Wraps .if [' '] ['a'] [' ', '\x7b'] "if (a) \x7b".toList :=
    ⟨rfl, List.all_eq_true.mp rfl, List.all_eq_true.mp rfl,
      .brace (w := [' ']) (by decide) (List.all_eq_true.mp rfl)⟩
  have hwrapped : isFalsePositive "if (a) \x7b".toList (some .keyword) = false := by decide
  have hopens : Opens .if "if (\n".toList :=
    ⟨[' '], ['\n'], rfl, List.all_eq_true.mp rfl, List.all_eq_true.mp rfl⟩
  refine ⟨ht, rfl, htext, hwraps, hwrapped, ?_⟩
  intro hmem
  exact (reported_iff_not_opens ht rfl htext hwraps hwrapped).mp hmem
    ⟨"if (\n".toList, by decide, hopens⟩

end ParenLint
