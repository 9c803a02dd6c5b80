import ParenLint.Proofs.Rule.Rewriting
import ParenLint.Swift.Lexeme

/-!
# Unwrapping as a simultaneous substitution

Rewriting the matches of a text one after the other, the last first, puts each replacement where its
match stood and keeps everything between: no rewrite moves the offset of one that is still to come.
-/

namespace ParenLint

open ParenLint.Swift

/-- What an unwrapped condition is replaced by. -/
def Match.replacement (m : Match) : List Char :=
  "if ".toList ++ m.captured.getD [] ++ " \x7b".toList

/-- The text `cs`, which begins at `offset`, with the spans of all matches replaced at once. -/
def substitute (offset : Nat) : List Match → List Char → List Char
  | [], cs => cs
  | m :: ms, cs =>
    cs.take (m.start - offset) ++ m.replacement ++ substitute m.stop ms (cs.drop (m.stop - offset))

/-- Unwrapping from the last match to the first leaves the text before `offset` as it was and
substitutes all matches in what follows. -/
lemma unwrapAll_eq_take_append {contents : List Char} {ms : List Match}
    (hdisjoint : ms.Pairwise fun m n => m.stop ≤ n.start)
    (hlength : ∀ m ∈ ms, m.stop ≤ contents.length) (offset : Nat)
    (hoffset : ∀ m ∈ ms, offset ≤ m.start) :
    unwrapAll ms contents =
      contents.take offset ++ substitute offset ms (contents.drop offset) := by
  induction ms generalizing offset with
  | nil => simp [unwrapAll, substitute]
  | cons m ms ih =>
    obtain ⟨hnext, hdisjoint⟩ := List.pairwise_cons.mp hdisjoint
    have hstart : offset ≤ m.start := hoffset m List.mem_cons_self
    have hstop : m.start ≤ m.stop := Nat.le_add_right _ _
    have hend : m.stop ≤ contents.length := hlength m List.mem_cons_self
    have hrest := ih hdisjoint (fun n hn => hlength n (List.mem_cons_of_mem m hn)) m.stop hnext
    have htake : (contents.take m.stop).length = m.stop := List.length_take_of_le hend
    calc unwrapAll (m :: ms) contents
        = unwrap m (contents.take m.stop ++ substitute m.stop ms (contents.drop m.stop)) := by
          rw [← hrest]
          rfl
      _ = contents.take m.start ++ m.replacement ++
            substitute m.stop ms (contents.drop m.stop) := by
          rw [unwrap, List.take_append_of_le_length (by omega), List.take_take,
            List.drop_append_of_le_length (by omega), List.drop_take, Nat.min_eq_left hstop]
          simp [Match.replacement]
      _ = contents.take offset ++ substitute offset (m :: ms) (contents.drop offset) := by
          rw [substitute, List.drop_drop, Nat.add_sub_cancel' (by omega : offset ≤ m.stop),
            ← List.append_assoc, ← List.append_assoc, ← List.take_add,
            Nat.add_sub_cancel' hstart]

lemma unwrapAll_rewritten (kindAt : Nat → TokenKind) (enablement : Enablement)
    (contents : List Char) : unwrapAll (rewritten kindAt enablement contents) contents =
      substitute 0 (rewritten kindAt enablement contents) contents := by
  simpa using unwrapAll_eq_take_append pairwise_rewritten
    (fun m hm => stop_le_length_of_mem_rewritten hm) 0 (fun m _ => Nat.zero_le m.start)

/-- A text that has been rewritten behind a match still has the match. -/
lemma WrappedIf.of_take_eq {contents text : List Char} {m : Match}
    {before gap body gap' after : List Char} (h : WrappedIf contents m before gap body gap' after)
    (htake : text.take m.stop = contents.take m.stop) :
    WrappedIf text m before gap body gap' (text.drop m.stop) := by
  have hfront : contents.take m.stop = before ++ m.text := by
    rw [h.contents_eq, Match.stop, h.start_eq, Match.length, ← List.length_append, List.take_left]
  refine ⟨?_, h.text_eq, h.start_eq, h.captured_eq, h.gap_blank, h.gap'_blank⟩
  rw [← hfront, ← htake, List.take_append_drop]

/-- Induction along the rewriting, from the last match to the first: each match is that of a wrapped
`if` in the text that the rewriting of the later ones has left. -/
theorem unwrapAll_induction {contents : List Char} {motive : List Match → List Char → Prop}
    (nil : motive [] contents)
    (cons : ∀ m ms text before gap body gap' after, WrappedIf text m before gap body gap' after →
      StaysAbove 0 body → motive ms text → motive (m :: ms) (unwrap m text))
    {ms : List Match} (hdisjoint : ms.Pairwise fun m n => m.stop ≤ n.start)
    (hwrapped : ∀ m ∈ ms, ∃ before gap body gap' after,
      WrappedIf contents m before gap body gap' after ∧ StaysAbove 0 body) :
    motive ms (unwrapAll ms contents) := by
  induction ms with
  | nil => exact nil
  | cons m ms ih =>
    obtain ⟨hnext, hdisjoint⟩ := List.pairwise_cons.mp hdisjoint
    obtain ⟨before, gap, body, gap', after, hm, hbody⟩ := hwrapped m List.mem_cons_self
    have hwrapped : ∀ n ∈ ms, ∃ before gap body gap' after,
        WrappedIf contents n before gap body gap' after ∧ StaysAbove 0 body :=
      fun n hn => hwrapped n (List.mem_cons_of_mem m hn)
    have hlength : ∀ n ∈ ms, n.stop ≤ contents.length := by
      intro n hn
      obtain ⟨_, _, _, _, _, hn, -⟩ := hwrapped n hn
      exact hn.stop_le_length
    -- What has been rewritten lies behind `m`.
    have htake : (unwrapAll ms contents).take m.stop = contents.take m.stop := by
      rw [unwrapAll_eq_take_append hdisjoint hlength m.stop hnext]
      exact List.take_left' (List.length_take_of_le hm.stop_le_length)
    exact cons m ms _ before gap body gap' _ (hm.of_take_eq htake) hbody (ih hdisjoint hwrapped)

/-- The text handed over to be stored is the simultaneous substitution of the matches that are
rewritten. There is one correction for each of them, the last first, located in the text before the
rewriting. -/
theorem correct_substitutes (file : SourceFile) (kindAt : Nat → TokenKind)
    (enablement : Enablement) :
    let ms := rewritten kindAt enablement file.contents
    (∀ failure, (ms = [] → (correct file kindAt enablement failure).written = []) ∧
      (ms ≠ [] → (correct file kindAt enablement failure).written =
        [substitute 0 ms file.contents])) ∧
    (correct file kindAt enablement none).outcome = .ok (ms.reverse.map fun m =>
      controlStatement.correction (file.location m.start)) ∧
    ms.reverse.Pairwise (fun m n => n.start < m.start) ∧
    ∀ m ∈ ms, ∃ body, m.captured = some body := by
  intro ms
  refine ⟨?_, ?_, ?_, ?_⟩
  · intro failure
    constructor
    · intro hnil
      exact (correct_of_eq_nil hnil).1
    · intro hne
      rw [← unwrapAll_rewritten]
      exact (correct_of_ne_nil hne).1
  · by_cases hnil : ms = []
    · rw [hnil]
      exact (correct_of_eq_nil hnil).2.2
    · exact (correct_of_ne_nil hnil).2
  · rw [List.pairwise_reverse]
    apply pairwise_rewritten.imp_of_mem
    intro m n hm _ hle
    exact Nat.lt_of_lt_of_le (start_lt_stop_of_mem_rewritten hm) hle
  · intro m hm
    obtain ⟨-, before, gap, body, gap', after, hwrapped, -⟩ := exists_wrappedIf_of_mem_rewritten hm
    exact ⟨body, hwrapped.captured_eq⟩

/-- The enablement may return spans in any order, repeat them and make some up. -/
theorem correct_substitutes_reordered :
    let file := SourceFile.ofContents "if (a) \x7b\nif (b)\n\x7b if (c) \x7b".toList none
    let kindAt := fun o : Nat => Token.kindAt (tokens file.contents) o
    let enablement : Enablement := fun _ _ => [⟨18, 26⟩, ⟨3, 4⟩, ⟨0, 8⟩, ⟨18, 26⟩]
    rewritten kindAt enablement file.contents ≠ [] ∧
      (correct file kindAt enablement none).written =
        ["if a \x7b\nif (b)\n\x7b if c \x7b".toList] ∧
      (correct file kindAt enablement none).outcome =
        .ok [controlStatement.correction ⟨none, 18, 3, 3⟩,
          controlStatement.correction ⟨none, 0, 1, 1⟩] := by
  intro file kindAt enablement
  have hne : rewritten kindAt enablement file.contents ≠ [] := by decide +kernel
  obtain ⟨hwritten, houtcome, -, -⟩ := correct_substitutes file kindAt enablement
  exact ⟨hne, ((hwritten none).2 hne).trans (by decide +kernel),
    houtcome.trans (by decide +kernel)⟩

end ParenLint
