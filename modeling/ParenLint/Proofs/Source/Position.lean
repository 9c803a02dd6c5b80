import Mathlib.Data.List.TakeWhile
import ParenLint.Source.SourceFile

/-!
# The order of positions

Lines and characters follow the offsets: a later offset is on a later line, or it is further behind
on the same line.
-/

namespace ParenLint

variable {starts : List Nat} {a b : Int}

/-- No line that has begun by an offset is missing at a later one. -/
lemma begun_prefix (starts : List Nat) (hle : a ≤ b) :
    starts.takeWhile (fun s : Nat => (s : Int) ≤ a) <+:
      starts.takeWhile (fun s : Nat => (s : Int) ≤ b) := by
  have hboth : starts.takeWhile (fun s : Nat => (s : Int) ≤ a) =
      (starts.takeWhile fun s : Nat => (s : Int) ≤ b).takeWhile fun s : Nat => (s : Int) ≤ a := by
    rw [List.takeWhile_takeWhile]
    congr
    funext s
    simp only [decide_eq_true_eq, decide_eq_decide]
    omega
  rw [hboth]
  exact List.takeWhile_prefix _

lemma positionIn_of_lt (starts : List Nat) (hlt : a < b) :
    (positionIn starts a).1 < (positionIn starts b).1 ∨
      (positionIn starts a).1 = (positionIn starts b).1 ∧
        (positionIn starts a).2 < (positionIn starts b).2 := by
  have hprefix := begun_prefix starts (Int.le_of_lt hlt)
  rcases Nat.lt_or_eq_of_le hprefix.length_le with hline | hline
  · left
    exact Int.ofNat_lt.mpr hline
  · -- As many lines have begun, so both offsets are measured from the same one.
    right
    have hbegun := hprefix.eq_of_length hline
    simp only [positionIn, hbegun, true_and]
    omega

/-- The order of positions is that of the offsets. -/
theorem positionIn_le_iff :
    ((positionIn starts a).1 < (positionIn starts b).1 ∨
      (positionIn starts a).1 = (positionIn starts b).1 ∧
        (positionIn starts a).2 ≤ (positionIn starts b).2) ↔ a ≤ b := by
  constructor
  · intro h
    by_contra hlt
    have hback := positionIn_of_lt starts (Int.not_le.mp hlt)
    omega
  · intro h
    rcases Int.lt_or_eq_of_le h with hlt | rfl
    · have hpos := positionIn_of_lt starts hlt
      omega
    · exact Or.inr ⟨rfl, Int.le_refl _⟩

/-- A character stands behind the start of its line, and no further from it than from the start of
the text. -/
lemma positionIn_character_bounds (contents : List Char) (h : 0 ≤ a) :
    1 ≤ (positionIn (lineStarts contents) a).2 ∧
      (positionIn (lineStarts contents) a).2 ≤ a + 1 := by
  have hne : (lineStarts contents).takeWhile (fun s : Nat => (s : Int) ≤ a) ≠ [] := by
    simp [lineStarts, h]
  have hmem := List.mem_takeWhile_imp (List.getLast_mem hne)
  have hlast := of_decide_eq_true hmem
  simp only [positionIn, List.getLast?_eq_some_getLast hne, Option.orElse_eq_orElse,
    Option.orElse_some, Option.getD_some]
  omega

end ParenLint
