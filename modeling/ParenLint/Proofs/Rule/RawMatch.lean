import ParenLint.Proofs.Rule.Substitution
import ParenLint.Proofs.Text.Newline

/-!
# Matches before line ends are unified

Matches are found in a text with unified line ends. Each of them stands for a stretch of the text
before, and replacing these stretches there goes with replacing the matches in the unified text.
-/

namespace ParenLint

open ParenLint.Text

variable {raw : List Char} {m : Match} {ms : List Match}

/-- The match of the stretch of a text that is read as the text of a match. -/
def Match.inRaw (raw : List Char) (m : Match) : Match :=
  { m with
    start := rawLength m.start raw
    text := (raw.take (rawLength m.stop raw)).drop (rawLength m.start raw) }

lemma Match.inRaw_stop (raw : List Char) (m : Match) :
    (m.inRaw raw).stop = rawLength m.stop raw := by
  have hle : rawLength m.start raw ≤ rawLength m.stop raw :=
    rawLength_mono (Nat.le_add_right _ _) raw
  rw [Match.stop, Match.length, Match.inRaw, List.length_drop,
    List.length_take_of_le (rawLength_le _ raw), Nat.add_sub_cancel' hle]

/-- The replacement is an `if` and a body that was read. -/
lemma WrappedIf.exists_replacement_eq {before gap body gap' after : List Char}
    (h : WrappedIf (unifyNewlines raw) m before gap body gap' after) :
    ∃ tail, m.replacement = 'i' :: tail ∧ '\r' ∉ 'i' :: tail := by
  have hbody : '\r' ∉ body := by
    intro hmem
    apply not_mem_unifyNewlines raw
    rw [h.contents_eq, h.text_eq]
    simp [hmem]
  have hreplacement : m.replacement = 'i' :: 'f' :: ' ' :: (body ++ [' ', '\x7b']) := by
    rw [Match.replacement, h.captured_eq]
    rfl
  exact ⟨_, hreplacement, by simp [hbody]⟩

lemma WrappedIf.unifyNewlines_inRaw {before gap body gap' after : List Char}
    (h : WrappedIf (unifyNewlines raw) m before gap body gap' after) :
    unifyNewlines (m.inRaw raw).text = m.text := by
  have hstretch := unifyNewlines_take_drop (Nat.le_add_right m.start m.length) raw
  have hstart : (before ++ (m.text ++ after)).drop m.start = m.text ++ after := by
    rw [h.start_eq, List.drop_left]
  rw [← List.drop_take, Nat.add_sub_cancel_left, h.contents_eq, List.append_assoc, hstart,
    Match.length, List.take_left] at hstretch
  exact hstretch

/-- What is read of a text in which the matches were replaced is the text that was read, with the
matches replaced. -/
lemma unifyNewlines_substitute
    (hwrapped : ∀ m ∈ ms, ∃ before gap body gap' after,
      WrappedIf (unifyNewlines raw) m before gap body gap' after)
    (hdisjoint : ms.Pairwise fun m n => m.stop ≤ n.start) (offset : Nat)
    (hoffset : ∀ m ∈ ms, offset ≤ m.start) :
    unifyNewlines (substitute (rawLength offset raw) (ms.map (Match.inRaw raw))
        (raw.drop (rawLength offset raw))) =
      substitute offset ms ((unifyNewlines raw).drop offset) := by
  induction ms generalizing offset with
  | nil => exact unifyNewlines_drop offset raw
  | cons m ms ih =>
    obtain ⟨hnext, hdisjoint⟩ := List.pairwise_cons.mp hdisjoint
    have hstart : offset ≤ m.start := hoffset m List.mem_cons_self
    have hstop : offset ≤ m.stop := Nat.le_trans hstart (Nat.le_add_right _ _)
    have hrest := ih (fun n hn => hwrapped n (List.mem_cons_of_mem m hn)) hdisjoint m.stop hnext
    obtain ⟨before, gap, body, gap', after, hm⟩ := hwrapped m List.mem_cons_self
    obtain ⟨tail, hreplacement, hreturn⟩ := hm.exists_replacement_eq
    have hraw : (m.inRaw raw).replacement = 'i' :: tail := hreplacement
    rw [List.map_cons, substitute, substitute, Match.inRaw_stop, hraw, hreplacement,
      unifyNewlines_append_cons_append (by decide) hreturn, List.drop_drop, List.drop_drop,
      Nat.add_sub_cancel' (rawLength_mono hstop raw), Nat.add_sub_cancel' hstop, hrest,
      ← unifyNewlines_take_drop hstart]
    rfl

end ParenLint
