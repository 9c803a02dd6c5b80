import ParenLint.Proofs.Rule.Substitution
import ParenLint.Proofs.Statement.Shadowing

/-!
# A second look at a rewritten condition

The condition of a rewritten `if` is put back as it was, so a scan of the new text finds it wrapped
once more exactly if it was wrapped twice. Nothing in front of it can hide it: what has been
rewritten there ends in a brace.
-/

namespace ParenLint

open ParenLint.Swift ParenLint.Text

variable {kindAt : Nat → TokenKind} {contents : List Char}

/-! ### Where the search finds a condition -/

/-- Recording the body does not change where a search finds a wrapped `if`. -/
lemma exists_match_correctable_iff {offset : Nat} :
    (∃ m ∈ Pattern.correctable.matches kindAt contents, m.start = offset) ↔
      ∃ m ∈ (Pattern.statement .if).matches kindAt contents, m.start = offset := by
  have hmap : (Pattern.correctable.matches kindAt contents).map Match.withoutCapture =
      (Pattern.statement .if).matches kindAt contents :=
    Pattern.matchesFrom_conditional_map .if
  rw [← hmap]
  constructor
  · rintro ⟨m, hm, hstart⟩
    exact ⟨m.withoutCapture, List.mem_map_of_mem hm, hstart⟩
  · rintro ⟨n, hn, hstart⟩
    obtain ⟨m, hm, rfl⟩ := List.mem_map.mp hn
    exact ⟨m, hm, hstart⟩

/-- A wrapped `if` can be corrected if it begins with a keyword, its first parenthesis does not
close early, and nothing in front of it hides it. -/
lemma exists_wrapped_iff {before gap body ending text after : List Char}
    (h : Wraps .if gap body ending text) :
    (∃ n ∈ Pattern.correctable.wrapped kindAt (before ++ text ++ after), n.start = before.length) ↔
      kindAt before.length = .keyword ∧ StaysAbove 0 body ∧
        ¬ ∃ hidden, hidden <:+ before ∧ Opens .if hidden := by
  have hfound : (∃ m ∈ (Pattern.statement .if).matches kindAt (before ++ text ++ after),
      m.start = before.length) ↔ ¬ ∃ hidden, hidden <:+ before ∧ Opens .if hidden :=
    Pattern.exists_match_iff_not_opens h
  rw [← hfound, ← exists_match_correctable_iff]
  constructor
  · rintro ⟨n, hn, hstart⟩
    obtain ⟨hkeyword, before', gap', body', ending', after', heq, hstart', -, hwraps, hbody⟩ :=
      exists_wraps_of_mem_wrapped hn
    rw [List.append_assoc, List.append_assoc] at heq
    have hrest := (List.append_inj heq (hstart.symm.trans hstart')).2
    have htext := h.text_unique hwraps hrest
    obtain ⟨-, rfl, -⟩ := (htext ▸ h).parts_unique hwraps
    exact ⟨hstart ▸ hkeyword, hbody, n, (Pattern.mem_wrapped.mp hn).1, hstart⟩
  · rintro ⟨hkeyword, hbody, n, hn, hstart⟩
    refine ⟨n, Pattern.mem_wrapped.mpr ⟨hn, ?_⟩, hstart⟩
    rw [Pattern.correctable_eq_conditional] at hn
    obtain ⟨before', after', heq, hstart', hat⟩ := Pattern.exists_of_mem_matchesFrom
      (Pattern.isProductive_conditional .if true) hn
    obtain ⟨-, hkind, -, gap', body', ending', hwraps, -⟩ :=
      Pattern.match?_conditional_eq_some_iff.mp hat
    rw [List.append_assoc, List.append_assoc] at heq
    have hlength : before.length = before'.length := by
      rw [← hstart, hstart', Nat.zero_add]
    have htext := h.text_unique hwraps (List.append_inj heq hlength).2
    rw [Match.isFalsePositive, hkind, hstart, hkeyword, ← htext, h.isFalsePositive_eq_false_iff]
    exact hbody

/-! ### The condition that is put back -/

/-- The condition is wrapped in a pair of parentheses of its own, of which the first does not close
early. -/
def IsWrapped (condition : List Char) : Prop :=
  ∃ gap body gap', condition = gap ++ '(' :: body ++ ')' :: gap' ∧
    (∀ c ∈ gap, isBlank c = true) ∧ (∀ c ∈ gap', isBlank c = true) ∧ StaysAbove 0 body

/-- What a condition is replaced by is a wrapped `if` exactly if the condition is wrapped itself. -/
lemma exists_wraps_replacement_iff {condition : List Char}
    (hcondition : ∀ c ∈ condition, isBodyChar c = true) :
    (∃ gap body ending, Wraps .if gap body ending
        ("if ".toList ++ condition ++ " \x7b".toList) ∧ StaysAbove 0 body) ↔
      IsWrapped condition := by
  constructor
  · rintro ⟨gap, body, ending, hwraps, hbody⟩
    obtain ⟨w, hw, rfl⟩ : ∃ w, (∀ c ∈ w, isBlank c = true) ∧ ending = w ++ ['{'] := by
      cases hwraps.ending with
      | brace _ hw => exact ⟨_, hw, rfl⟩
    have heq : (' ' :: condition ++ [' ']) ++ ['{'] =
        (gap ++ '(' :: body ++ ')' :: w) ++ ['{'] := by
      have htext := hwraps.text_eq
      simpa [StatementKind.keyword] using htext
    -- The blanks that the rewriting has put in are the first before the parentheses and the last
    -- behind them.
    have heq := List.append_cancel_right heq
    cases gap with
    | nil => simp at heq
    | cons c gap =>
      rcases List.eq_nil_or_concat w with rfl | ⟨w, d, rfl⟩
      · have hlast : [' '] = [')'] := (List.append_inj' heq rfl).2
        simp at hlast
      · have hgap := (List.forall_mem_cons.mp hwraps.gap_blank).2
        simp only [List.cons_append, List.cons.injEq, List.concat_eq_append] at heq
        have hinner : condition ++ [' '] = (gap ++ '(' :: body ++ ')' :: w) ++ [d] := by
          simpa using heq.2
        refine ⟨gap, body, w, (List.append_inj' hinner rfl).1, hgap, ?_, hbody⟩
        intro c hc
        exact hw c (by simp [hc])
  · rintro ⟨gap, body, gap', rfl, hgap, hgap', hbody⟩
    refine ⟨' ' :: gap, body, (gap' ++ [' ']) ++ ['{'], ⟨?_, ?_, ?_, ?_⟩, hbody⟩
    · simp [StatementKind.keyword]
    · intro c hc
      rcases List.mem_cons.mp hc with rfl | hc
      · exact isBlank_space
      · exact hgap c hc
    · intro c hc
      exact hcondition c (by simp [hc])
    · apply Ending.brace (by decide)
      intro c hc
      rcases List.mem_append.mp hc with hc | hc
      · exact hgap' c hc
      · rw [List.mem_singleton.mp hc]
        exact isBlank_space

/-- Where nothing in front of it hides it, a condition that has been put back is found again exactly
if it is wrapped itself. -/
lemma exists_wrapped_replacement_iff (kindAt : Nat → TokenKind) {front condition : List Char}
    (behind : List Char) (hcondition : ∀ c ∈ condition, isBodyChar c = true)
    (hnone : ¬ ∃ hidden, hidden <:+ front ∧ Opens .if hidden) :
    (∃ n ∈ Pattern.correctable.wrapped kindAt
        (front ++ ("if ".toList ++ condition ++ " \x7b".toList) ++ behind),
        n.start = front.length) ↔
      kindAt front.length = .keyword ∧ IsWrapped condition := by
  rw [← exists_wraps_replacement_iff hcondition]
  constructor
  · rintro ⟨n, hn, hstart⟩
    obtain ⟨hkeyword, before, gap, body, ending, after, heq, hstart', -, hwraps, hbody⟩ :=
      exists_wraps_of_mem_wrapped hn
    rw [List.append_assoc front, List.append_assoc before] at heq
    have hrest := (List.append_inj heq (hstart.symm.trans hstart')).2
    -- Both end at the first brace.
    have hbrace : '{' ∉ "if ".toList ++ condition ++ [' '] := by
      have hbody : '{' ∉ condition := fun hmem => absurd (hcondition _ hmem) (by decide)
      simp [hbody]
    have htext : n.text = "if ".toList ++ condition ++ " \x7b".toList := by
      have hshape : "if ".toList ++ condition ++ " \x7b".toList ++ behind =
          ("if ".toList ++ condition ++ [' ']) ++ '{' :: behind := by
        simp
      rw [hwraps.eq_takeWhile after, ← hrest, hshape, takeWhile_ne_append_cons hbrace]
      simp
    rw [htext] at hwraps
    exact ⟨hstart ▸ hkeyword, gap, body, ending, hwraps, hbody⟩
  · rintro ⟨hkeyword, gap, body, ending, hwraps, hbody⟩
    exact (exists_wrapped_iff hwraps).mpr ⟨hkeyword, hbody, hnone⟩

/-! ### Substitution in front of a match and behind it -/

lemma suffix_of_suffix_append_cons {x : Char} {s a b : List Char} (hx : x ∉ s)
    (h : s <:+ a ++ x :: b) : s <:+ b := by
  rcases List.suffix_or_suffix_of_suffix h (List.suffix_append a (x :: b)) with h | h
  · rcases List.suffix_cons_iff.mp h with rfl | h
    · exact absurd List.mem_cons_self hx
    · exact h
  · exact absurd (h.mem List.mem_cons_self) hx

/-- A stretch without a brace at the end of the new text was at the end of the old one. -/
lemma suffix_of_suffix_substitute {hidden cs : List Char} {ms : List Match} {offset : Nat}
    (hbrace : '{' ∉ hidden) (h : hidden <:+ substitute offset ms cs) : hidden <:+ cs := by
  induction ms generalizing offset cs with
  | nil => exact h
  | cons m ms ih =>
    have hshape : substitute offset (m :: ms) cs =
        (cs.take (m.start - offset) ++ "if ".toList ++ m.captured.getD [] ++ [' ']) ++ '{' ::
          substitute m.stop ms (cs.drop (m.stop - offset)) := by
      simp [substitute, Match.replacement]
    rw [hshape] at h
    have hbehind := ih (suffix_of_suffix_append_cons hbrace h)
    exact hbehind.trans (List.drop_suffix _ _)

/-- The text in front of a match and the text behind it are substituted independently. -/
lemma substitute_append_cons {before after : List Match} {m : Match} {cs : List Char} {offset : Nat}
    (hordered : (before ++ m :: after).Pairwise fun m n => m.stop ≤ n.start)
    (hoffset : ∀ n ∈ before, offset ≤ n.start) :
    substitute offset (before ++ m :: after) cs =
      substitute offset before (cs.take (m.start - offset)) ++ m.replacement ++
        substitute m.stop after (cs.drop (m.stop - offset)) := by
  induction before generalizing offset cs with
  | nil => rfl
  | cons n before ih =>
    obtain ⟨hnext, hordered⟩ := List.pairwise_cons.mp hordered
    have hle : offset ≤ n.start := hoffset n List.mem_cons_self
    have hstop : n.start ≤ n.stop := Nat.le_add_right _ _
    have hm : n.stop ≤ m.start := hnext m (by simp)
    have hm' : m.start ≤ m.stop := Nat.le_add_right _ _
    have hbefore : ∀ k ∈ before, n.stop ≤ k.start := by
      intro k hk
      exact hnext k (List.mem_append_left _ hk)
    rw [List.cons_append, substitute, substitute, ih hordered hbefore, List.take_take,
      List.drop_take, List.drop_drop]
    have htake : min (n.start - offset) (m.start - offset) = n.start - offset := by omega
    have hinner : m.start - offset - (n.stop - offset) = m.start - n.stop := by omega
    have hdrop : n.stop - offset + (m.stop - n.stop) = m.stop - offset := by omega
    rw [htake, hinner, hdrop]
    simp only [List.append_assoc]

/-- The text before a match, with the matches that end no later than it begins rewritten. -/
def substitutedBefore (ms : List Match) (m : Match) (contents : List Char) : List Char :=
  substitute 0 (ms.filter (·.stop ≤ m.start)) (contents.take m.start)

/-- A match that is rewritten leaves its condition behind the new text before it. -/
lemma exists_unwrapAll_eq {enablement : Enablement} {m : Match}
    (hm : m ∈ rewritten kindAt enablement contents) :
    ∃ behind, unwrapAll (rewritten kindAt enablement contents) contents =
      substitutedBefore (rewritten kindAt enablement contents) m contents ++ m.replacement ++
        behind := by
  have hordered : (rewritten kindAt enablement contents).Pairwise fun m n => m.stop ≤ n.start :=
    pairwise_rewritten
  have hlt := start_lt_stop_of_mem_rewritten hm
  rw [unwrapAll_rewritten, substitutedBefore]
  obtain ⟨before, after, heq⟩ := List.append_of_mem hm
  rw [heq] at hordered ⊢
  have hbefore : before.filter (·.stop ≤ m.start) = before := by
    rw [List.filter_eq_self]
    intro n hn
    exact decide_eq_true ((List.pairwise_append.mp hordered).2.2 n hn m List.mem_cons_self)
  have hafter : (m :: after).filter (·.stop ≤ m.start) = [] := by
    rw [List.filter_eq_nil_iff]
    intro n hn hle
    have hle := of_decide_eq_true hle
    rcases List.mem_cons.mp hn with rfl | hn
    · omega
    · have hlt' : n.start ≤ n.stop := Nat.le_add_right _ _
      have hstop := (List.pairwise_cons.mp (List.pairwise_append.mp hordered).2.1).1 n hn
      omega
  rw [List.filter_append, hbefore, hafter, List.append_nil,
    substitute_append_cons hordered fun n _ => Nat.zero_le n.start]
  exact ⟨_, rfl⟩

/-! ### The rescan -/

/-- Where the `if` of a correction stands in the new text, a new scan finds a condition to correct
exactly if that text still reads `if` as a keyword there and the condition is wrapped itself. -/
theorem rescan_finds_iff_isWrapped {file : SourceFile} {enablement : Enablement}
    {failure : Option WriteFailure} {corrections : List Correction}
    (hrun : (correct file kindAt enablement failure).outcome = .ok corrections) {c : Correction}
    (hc : c ∈ corrections) :
    let text := (correct file kindAt enablement failure).file.contents
    let ms := rewritten kindAt enablement file.contents
    ∃ m ∈ ms, ∃ condition behind, c.location = file.location m.start ∧
      m.captured = some condition ∧
      text = substitutedBefore ms m file.contents ++ "if ".toList ++ condition ++ " \x7b".toList ++
        behind ∧
      ((∃ n ∈ Pattern.correctable.wrapped (fun o => Token.kindAt (tokens text) o) text,
          n.start = (substitutedBefore ms m file.contents).length) ↔
        Token.kindAt (tokens text) (substitutedBefore ms m file.contents).length = .keyword ∧
          IsWrapped condition) := by
  intro text ms
  obtain ⟨m, hm, hlocation⟩ := exists_rewritten_of_mem_corrections hrun hc
  obtain ⟨-, before, gap, condition, ending, after, hcontents, hstart, hcaptured, hwraps, hbody⟩ :=
    exists_wraps_of_mem_wrapped (List.mem_of_mem_filter hm)
  have hfailure : failure = none := by
    cases failure with
    | none => rfl
    | some e =>
      rw [(correct_of_ne_nil (List.ne_nil_of_mem hm)).2] at hrun
      cases hrun
  subst hfailure
  obtain ⟨behind, htext⟩ := exists_unwrapAll_eq hm
  rw [← contents_correct, Match.replacement, hcaptured, Option.getD_some] at htext
  refine ⟨m, hm, condition, behind, hlocation, hcaptured, by simpa using htext, ?_⟩
  have hbefore : file.contents.take m.start = before := by
    rw [hcontents, hstart, List.append_assoc, List.take_left]
  have hnone : ¬ ∃ hidden, hidden <:+ substitutedBefore ms m file.contents ∧ Opens .if hidden := by
    have hfound : ∃ n ∈ Pattern.correctable.wrapped kindAt (before ++ m.text ++ after),
        n.start = before.length :=
      ⟨m, hcontents ▸ List.mem_of_mem_filter hm, hstart⟩
    rintro ⟨hidden, hsuffix, hopens⟩
    have hold := suffix_of_suffix_substitute hopens.brace_not_mem hsuffix
    rw [hbefore] at hold
    exact ((exists_wrapped_iff hwraps).mp hfound).2.2 ⟨hidden, hold, hopens⟩
  have hiff := exists_wrapped_replacement_iff (fun o => Token.kindAt (tokens text) o) behind
    hwraps.body_char hnone
  rw [← htext] at hiff
  exact hiff

/-- A condition that is wrapped twice is found again, behind another one that has been rewritten. -/
theorem rescan_finds_wrapped_twice :
    let file := SourceFile.ofContents "if (a) \x7b\nif ((b)) \x7b".toList none
    let kindAt := fun o : Nat => Token.kindAt (tokens file.contents) o
    let run := correct file kindAt (fun spans _ => spans) none
    let corrections := [controlStatement.correction ⟨none, 9, 2, 1⟩,
      controlStatement.correction ⟨none, 0, 1, 1⟩]
    let text := "if a \x7b\nif (b) \x7b".toList
    run.outcome = .ok corrections ∧
      controlStatement.correction ⟨none, 9, 2, 1⟩ ∈ corrections ∧ run.file.contents = text ∧
      ∃ n ∈ Pattern.correctable.wrapped (fun o => Token.kindAt (tokens text) o) text,
        n.start = 7 := by
  intro file kindAt run corrections text
  have hrun : run.outcome = .ok corrections := by decide +kernel
  have hc : controlStatement.correction ⟨none, 9, 2, 1⟩ ∈ corrections := List.mem_cons_self
  have htext : run.file.contents = text := by decide +kernel
  have hrewritten : rewritten kindAt (fun spans _ => spans) file.contents =
      [⟨0, "if (a) \x7b".toList, .keyword, some ['a']⟩,
        ⟨9, "if ((b)) \x7b".toList, .keyword, some "(b)".toList⟩] := by
    decide +kernel
  obtain ⟨m, hm, condition, behind, hlocation, hcaptured, -, hiff⟩ :=
    rescan_finds_iff_isWrapped hrun hc
  rw [hrewritten] at hm hiff
  rw [htext] at hiff
  obtain rfl : m = ⟨9, "if ((b)) \x7b".toList, .keyword, some "(b)".toList⟩ := by
    rcases List.mem_cons.mp hm with rfl | hm
    · exact absurd hlocation (by decide)
    · exact List.mem_singleton.mp hm
  obtain rfl : "(b)".toList = condition := Option.some.inj hcaptured
  refine ⟨hrun, hc, htext, hiff.mpr ⟨by decide +kernel, [], ['b'], [], rfl, ?_, ?_, ?_⟩⟩
  · simp
  · simp
  · decide

end ParenLint
