import Mathlib.Tactic.Lemma
import ParenLint.Text.Newline

/-!
# Unified line ends

Which stretch of a text is read as the first characters of the unified one, and how unifying goes
with taking a text apart and putting it together. A text without carriage returns stays as it is.
-/

namespace ParenLint.Text

variable {cs rest xs : List Char} {c : Char} {n k : Nat}

/-! ### Unified texts -/

/-- A carriage return and a newline, and only they, are read as one character. -/
lemma unifyNewlines_cons (h : ∀ tail, c = '\r' → rest = '\n' :: tail → False) :
    unifyNewlines (c :: rest) = (if c = '\r' then '\n' else c) :: unifyNewlines rest := by
  by_cases hc : c = '\r'
  · subst hc
    rw [if_pos rfl, unifyNewlines]
    exact fun tail heq => h tail rfl heq
  · rw [if_neg hc, unifyNewlines]
    · exact fun tail heq _ => hc heq
    · exact hc

lemma unifyNewlines_cons_of_ne (hc : c ≠ '\r') (rest : List Char) :
    unifyNewlines (c :: rest) = c :: unifyNewlines rest := by
  rw [unifyNewlines_cons fun _ heq => absurd heq hc, if_neg hc]

lemma not_mem_unifyNewlines (cs : List Char) : '\r' ∉ unifyNewlines cs := by
  fun_induction unifyNewlines cs with
  | case1 => simp
  | case2 rest ih => simp [ih]
  | case3 rest hline ih => simp [ih]
  | case4 c rest hline hreturn ih =>
    rw [List.mem_cons, not_or]
    exact ⟨fun heq => hreturn heq.symm, ih⟩

/-- Characters that are not line ends stay. -/
lemma count_unifyNewlines (hline : c ≠ '\n') (hreturn : c ≠ '\r') (cs : List Char) :
    (unifyNewlines cs).count c = cs.count c := by
  fun_induction unifyNewlines cs with
  | case1 => rfl
  | case2 rest ih => simp [ih, Ne.symm hline, Ne.symm hreturn]
  | case3 rest _ ih => simp [ih, Ne.symm hline, Ne.symm hreturn]
  | case4 c rest _ _ ih => simp [List.count_cons, ih]

/-- Text without carriage returns at the front stays as it is. -/
lemma unifyNewlines_append_of_not_mem (h : '\r' ∉ xs) (rest : List Char) :
    unifyNewlines (xs ++ rest) = xs ++ unifyNewlines rest := by
  induction xs with
  | nil => rfl
  | cons x xs ih =>
    rw [List.mem_cons, not_or] at h
    rw [List.cons_append, unifyNewlines_cons_of_ne (Ne.symm h.1), ih h.2, List.cons_append]

lemma unifyNewlines_eq_self_iff : unifyNewlines cs = cs ↔ '\r' ∉ cs := by
  constructor
  · intro h hmem
    rw [← h] at hmem
    exact not_mem_unifyNewlines cs hmem
  · intro h
    have hself := unifyNewlines_append_of_not_mem h []
    rwa [List.append_nil, unifyNewlines, List.append_nil] at hself

/-- No line end reaches over a place behind which there is no newline. -/
lemma unifyNewlines_append_cons (hc : c ≠ '\n') (xs rest : List Char) :
    unifyNewlines (xs ++ c :: rest) = unifyNewlines xs ++ unifyNewlines (c :: rest) := by
  fun_induction unifyNewlines xs with
  | case1 => rfl
  | case2 xs ih => exact congrArg _ ih
  | case3 xs hline ih =>
    rw [List.cons_append, unifyNewlines_cons, if_pos rfl, ih, List.cons_append]
    rintro tail - heq
    cases xs with
    | nil => exact hc (List.cons.inj heq).1
    | cons x xs => exact hline xs (by rw [(List.cons.inj heq).1])
  | case4 x xs hline hreturn ih =>
    rw [List.cons_append, unifyNewlines_cons_of_ne hreturn, ih, List.cons_append]

/-- What stands between two texts and neither holds a carriage return nor begins with a newline is
kept. -/
lemma unifyNewlines_append_cons_append (hc : c ≠ '\n') (h : '\r' ∉ c :: cs)
    (xs rest : List Char) :
    unifyNewlines (xs ++ c :: cs ++ rest) = unifyNewlines xs ++ c :: cs ++ unifyNewlines rest := by
  rw [List.append_assoc, List.cons_append, unifyNewlines_append_cons hc, ← List.cons_append,
    unifyNewlines_append_of_not_mem h, List.append_assoc]

/-! ### Stretches that are read as a number of characters -/

/-- The length of the stretch at the front of a text that is read as its first `n` characters. -/
def rawLength : Nat → List Char → Nat
  | 0, _ => 0
  | _ + 1, [] => 0
  | n + 1, '\r' :: '\n' :: rest => rawLength n rest + 2
  | n + 1, _ :: rest => rawLength n rest + 1

lemma rawLength_le (n : Nat) (cs : List Char) : rawLength n cs ≤ cs.length := by
  fun_induction rawLength n cs with
  | case1 | case2 => exact Nat.zero_le _
  | case3 n rest ih => exact Nat.add_le_add_right ih 2
  | case4 n c rest h ih => exact Nat.add_le_add_right ih 1

lemma rawLength_add (n k : Nat) (cs : List Char) :
    rawLength (n + k) cs = rawLength n cs + rawLength k (cs.drop (rawLength n cs)) := by
  fun_induction rawLength n cs with
  | case1 => simp
  | case2 n => cases k <;> simp [rawLength]
  | case3 n rest ih =>
    rw [Nat.succ_add, rawLength, ih, List.drop_succ_cons, List.drop_succ_cons]
    omega
  | case4 n c rest h ih =>
    rw [Nat.succ_add, rawLength, ih, List.drop_succ_cons]
    · omega
    · exact h

lemma rawLength_mono (h : n ≤ k) (cs : List Char) : rawLength n cs ≤ rawLength k cs := by
  obtain ⟨d, rfl⟩ := Nat.exists_eq_add_of_le h
  rw [rawLength_add]
  exact Nat.le_add_right _ _

lemma unifyNewlines_take (n : Nat) (cs : List Char) :
    unifyNewlines (cs.take (rawLength n cs)) = (unifyNewlines cs).take n := by
  fun_induction rawLength n cs with
  | case1 => rfl
  | case2 n => rfl
  | case3 n rest ih =>
    rw [unifyNewlines, List.take_succ_cons, List.take_succ_cons, List.take_succ_cons,
      unifyNewlines, ih]
  | case4 n c rest h ih =>
    have hfront : ∀ tail, c = '\r' → rest.take (rawLength n rest) = '\n' :: tail → False := by
      intro tail hc heq
      refine h (tail ++ rest.drop (rawLength n rest)) hc ?_
      rw [← List.cons_append, ← heq, List.take_append_drop]
    rw [unifyNewlines_cons h, List.take_succ_cons, List.take_succ_cons, unifyNewlines_cons hfront,
      ih]

lemma unifyNewlines_drop (n : Nat) (cs : List Char) :
    unifyNewlines (cs.drop (rawLength n cs)) = (unifyNewlines cs).drop n := by
  fun_induction rawLength n cs with
  | case1 => rfl
  | case2 n => rfl
  | case3 n rest ih =>
    rw [unifyNewlines, List.drop_succ_cons, List.drop_succ_cons, List.drop_succ_cons, ih]
  | case4 n c rest h ih =>
    rw [unifyNewlines_cons h, List.drop_succ_cons, List.drop_succ_cons, ih]

/-- The stretch of a text between two offsets of the unified one. -/
lemma unifyNewlines_take_drop {start stop : Nat} (h : start ≤ stop) (cs : List Char) :
    unifyNewlines
        ((cs.drop (rawLength start cs)).take (rawLength stop cs - rawLength start cs)) =
      ((unifyNewlines cs).drop start).take (stop - start) := by
  obtain ⟨k, rfl⟩ := Nat.exists_eq_add_of_le h
  rw [rawLength_add, Nat.add_sub_cancel_left, unifyNewlines_take, unifyNewlines_drop,
    Nat.add_sub_cancel_left]

example : rawLength 3 ['a', '\r', '\n', '\r', 'b'] = 4 := by decide

end ParenLint.Text
