/-!
# Sets of characters as tables of ranges

A character class of a text standard is written down as the list of its maximal ranges of code
points, in ascending order. Membership looks for the first range that does not end before the
character.
-/

namespace ParenLint

/-- A set of code points as inclusive ranges in ascending order. -/
abbrev CharSet := List (Nat × Nat)

namespace CharSet

/-- Whether the code point `n` lies in one of the ranges. -/
def contains : CharSet → Nat → Bool
  | [], _ => false
  | (lo, hi) :: rest, n => if n ≤ hi then decide (lo ≤ n) else contains rest n

/-- Membership of a character is membership of its code point. -/
def containsChar (s : CharSet) (c : Char) : Bool := s.contains c.toNat

@[simp] theorem contains_nil (n : Nat) : contains [] n = false := rfl

theorem contains_cons_of_le {lo hi n : Nat} {rest : CharSet} (h : n ≤ hi) :
    contains ((lo, hi) :: rest) n = decide (lo ≤ n) := by
  simp [contains, h]

theorem contains_cons_of_lt {lo hi n : Nat} {rest : CharSet} (h : hi < n) :
    contains ((lo, hi) :: rest) n = contains rest n := by
  simp [contains, Nat.not_le.2 h]

/-- A member lies in one of the ranges. -/
theorem exists_range_of_contains {n : Nat} :
    ∀ {s : CharSet}, s.contains n = true → ∃ r ∈ s, r.1 ≤ n ∧ n ≤ r.2
  | [], h => by simp at h
  | (lo, hi) :: rest, h => by
    by_cases hn : n ≤ hi
    · rw [contains_cons_of_le hn] at h
      exact ⟨(lo, hi), by simp, of_decide_eq_true h, hn⟩
    · rw [contains_cons_of_lt (Nat.lt_of_not_le hn)] at h
      obtain ⟨r, hr, hb⟩ := exists_range_of_contains h
      exact ⟨r, List.mem_cons_of_mem _ hr, hb⟩

end CharSet

end ParenLint
