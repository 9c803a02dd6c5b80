import Mathlib.Data.List.Sort
import ParenLint.Order.Sort

/-!
# Sorting is stable

Sorting puts items in ascending order and keeps the order of those that the order does not tell
apart. So a part of the items can be picked out before or after the sorting, and the last item is
the last one in the list of those that no other has to come behind.
-/

namespace ParenLint

variable {α : Type} {le : α → α → Bool} {p : α → Bool} {x y : α} {xs ys mid : List α}

lemma sortBy_cons : sortBy le (x :: xs) = insertBy le x (sortBy le xs) := rfl

lemma sortBy_eq_insertionSort (le : α → α → Bool) (xs : List α) :
    sortBy le xs = xs.insertionSort fun x y => le x y = true := by
  have hinsert : ∀ x ys, insertBy le x ys = ys.orderedInsert (fun x y => le x y = true) x := by
    intro x ys
    induction ys with
    | nil => rfl
    | cons y ys ih => rw [insertBy, List.orderedInsert_cons, ih]
  induction xs with
  | nil => rfl
  | cons x xs ih => rw [sortBy_cons, List.insertionSort_cons, ih, hinsert]

/-! ### Items picked out -/

/-- Where only items in front of others meet a condition, those that begin the list are all that
meet it. -/
lemma takeWhile_eq_filter (h : xs.Pairwise fun x y => p y = true → p x = true) :
    xs.takeWhile p = xs.filter p := by
  induction xs with
  | nil => rfl
  | cons x xs ih =>
    obtain ⟨hx, hxs⟩ := List.pairwise_cons.mp h
    by_cases hp : p x = true
    · rw [List.takeWhile_cons_of_pos hp, List.filter_cons_of_pos hp, ih hxs]
    · rw [List.takeWhile_cons_of_neg hp, List.filter_cons_of_neg hp]
      symm
      rw [List.filter_eq_nil_iff]
      intro y hy hpy
      exact hp (hx y hy hpy)

lemma filter_insertBy_of_neg (h : p x = false) : (insertBy le x ys).filter p = ys.filter p := by
  induction ys with
  | nil => simp [insertBy, h]
  | cons y ys ih =>
    rw [insertBy]
    split
    · simp [h]
    · simp only [List.filter_cons, ih]

lemma filter_insertBy_of_pos [IsTrans α fun x y => le x y = true]
    (hys : ys.Pairwise fun x y => le x y = true) (h : p x = true) :
    (insertBy le x ys).filter p = insertBy le x (ys.filter p) := by
  induction ys with
  | nil => simp [insertBy, h]
  | cons y ys ih =>
    obtain ⟨hy, hys⟩ := List.pairwise_cons.mp hys
    rw [insertBy]
    split_ifs with hle
    · -- The first of the items picked out is `y` or comes behind it.
      have hfirst : ∀ z ∈ (y :: ys).filter p, le x z = true := by
        intro z hz
        rcases List.mem_cons.mp (List.mem_of_mem_filter hz) with rfl | hz
        · exact hle
        · exact IsTrans.trans (r := fun x y => le x y = true) x y z hle (hy z hz)
      rw [List.filter_cons_of_pos h]
      cases hrest : (y :: ys).filter p with
      | nil => rfl
      | cons z zs => rw [insertBy, if_pos (hfirst z (hrest ▸ List.mem_cons_self))]
    · by_cases hp : p y = true
      · rw [List.filter_cons_of_pos hp, List.filter_cons_of_pos hp, insertBy, if_neg hle, ih hys]
      · rw [List.filter_cons_of_neg hp, List.filter_cons_of_neg hp, ih hys]

/-! ### The last item -/

/-- No item has to come behind `x`, and those behind it in the list have to come before it. -/
def IsLastBy (le : α → α → Bool) (x : α) (xs : List α) : Prop :=
  ∃ front back, xs = front ++ x :: back ∧ (∀ y ∈ front, le y x = true) ∧
    ∀ y ∈ back, le x y = false

lemma IsLastBy.mem (h : IsLastBy le x xs) : x ∈ xs := by
  obtain ⟨front, back, rfl, -⟩ := h
  simp

lemma IsLastBy.le_of_mem [Std.Total fun x y => le x y = true] (h : IsLastBy le x xs)
    (hy : y ∈ xs) : le y x = true := by
  have htotal : ∀ a b, le a b = true ∨ le b a = true :=
    Std.Total.total (r := fun x y => le x y = true)
  obtain ⟨front, back, rfl, hfront, hback⟩ := h
  rcases List.mem_append.mp hy with hy | hy
  · exact hfront y hy
  · rcases List.mem_cons.mp hy with rfl | hy
    · exact or_self_iff.mp (htotal y y)
    · apply (htotal y x).resolve_right
      rw [hback y hy]
      exact Bool.false_ne_true

lemma isLastBy_cons_iff : IsLastBy le x (y :: ys) ↔
    y = x ∧ (∀ z ∈ ys, le x z = false) ∨ le y x = true ∧ IsLastBy le x ys := by
  constructor
  · rintro ⟨front, back, heq, hfront, hback⟩
    cases front with
    | nil =>
      obtain ⟨rfl, rfl⟩ := List.cons.inj heq
      exact Or.inl ⟨rfl, hback⟩
    | cons z front =>
      obtain ⟨rfl, rfl⟩ := List.cons.inj heq
      obtain ⟨hy, hfront⟩ := List.forall_mem_cons.mp hfront
      exact Or.inr ⟨hy, front, back, rfl, hfront, hback⟩
  · rintro (⟨rfl, hback⟩ | ⟨hy, front, back, rfl, hfront, hback⟩)
    · exact ⟨[], ys, rfl, by simp, hback⟩
    · exact ⟨y :: front, back, rfl, List.forall_mem_cons.mpr ⟨hy, hfront⟩, hback⟩

/-- The last of two lists of items is the last of one of them. -/
lemma isLastBy_append_iff : IsLastBy le x (xs ++ ys) ↔
    IsLastBy le x xs ∧ (∀ y ∈ ys, le x y = false) ∨
      IsLastBy le x ys ∧ ∀ y ∈ xs, le y x = true := by
  constructor
  · rintro ⟨front, back, heq, hfront, hback⟩
    rcases List.append_eq_append_iff.mp heq with ⟨mid, rfl, hmid⟩ | ⟨mid, rfl, hmid⟩
    · rw [List.forall_mem_append] at hfront
      exact Or.inr ⟨⟨mid, back, hmid, hfront.2, hback⟩, hfront.1⟩
    · cases mid with
      | nil =>
        refine Or.inr ⟨⟨[], back, by simpa using hmid.symm, by simp, hback⟩, ?_⟩
        simpa using hfront
      | cons z mid =>
        rw [List.cons_append] at hmid
        obtain ⟨rfl, rfl⟩ := List.cons.inj hmid
        rw [List.forall_mem_append] at hback
        exact Or.inl ⟨⟨front, mid, rfl, hfront, hback.1⟩, hback.2⟩
  · rintro (⟨⟨front, back, rfl, hfront, hback⟩, hys⟩ | ⟨⟨front, back, rfl, hfront, hback⟩, hxs⟩)
    · refine ⟨front, back ++ ys, by simp, hfront, ?_⟩
      exact List.forall_mem_append.mpr ⟨hback, hys⟩
    · refine ⟨xs ++ front, back, by simp, ?_, hback⟩
      exact List.forall_mem_append.mpr ⟨hxs, hfront⟩

lemma getLast?_insertBy_of_exists (h : ∃ y ∈ ys, le x y = true) :
    (insertBy le x ys).getLast? = ys.getLast? := by
  induction ys with
  | nil => simp at h
  | cons y ys ih =>
    rw [insertBy]
    split_ifs with hle
    · rfl
    · have hrest : ∃ z ∈ ys, le x z = true := by simpa [hle] using h
      rw [List.getLast?_cons, List.getLast?_cons, ih hrest]

lemma insertBy_of_forall (h : ∀ y ∈ ys, le x y = false) : insertBy le x ys = ys ++ [x] := by
  induction ys with
  | nil => rfl
  | cons y ys ih =>
    obtain ⟨hy, hys⟩ := List.forall_mem_cons.mp h
    rw [insertBy, hy, if_neg Bool.false_ne_true, ih hys, List.cons_append]

section Preorder

variable [Std.Total fun x y => le x y = true] [IsTrans α fun x y => le x y = true]

lemma pairwise_sortBy (xs : List α) : (sortBy le xs).Pairwise fun x y => le x y = true := by
  rw [sortBy_eq_insertionSort]
  exact List.pairwise_insertionSort _ _

/-- Items picked out of a list are sorted as they are within the list. -/
theorem filter_sortBy (p : α → Bool) (xs : List α) :
    (sortBy le xs).filter p = sortBy le (xs.filter p) := by
  induction xs with
  | nil => rfl
  | cons x xs ih =>
    rw [sortBy_cons]
    by_cases hp : p x = true
    · rw [filter_insertBy_of_pos (pairwise_sortBy xs) hp, ih, List.filter_cons_of_pos hp,
        sortBy_cons]
    · rw [filter_insertBy_of_neg (Bool.eq_false_iff.mpr hp), ih, List.filter_cons_of_neg hp]

/-- The last of the sorted items. -/
theorem getLast?_sortBy_eq_some_iff :
    (sortBy le xs).getLast? = some x ↔ IsLastBy le x xs := by
  induction xs with
  | nil =>
    constructor
    · intro h
      simp [sortBy] at h
    · intro h
      simpa using h.mem
  | cons y ys ih =>
    rw [sortBy_cons, isLastBy_cons_iff]
    by_cases hbehind : ∃ z ∈ ys, le y z = true
    · rw [getLast?_insertBy_of_exists (by simpa using hbehind), ih]
      obtain ⟨z, hz, hle⟩ := hbehind
      constructor
      · intro h
        exact Or.inr ⟨IsTrans.trans (r := fun x y => le x y = true) y z x hle (h.le_of_mem hz), h⟩
      · rintro (⟨rfl, hfirst⟩ | ⟨-, h⟩)
        · exact absurd (hfirst z hz) (by simp [hle])
        · exact h
    · have hfirst : ∀ z ∈ ys, le y z = false := by simpa using hbehind
      rw [insertBy_of_forall (by simpa using hfirst), List.getLast?_concat, Option.some.injEq]
      constructor
      · rintro rfl
        exact Or.inl ⟨rfl, hfirst⟩
      · rintro (⟨rfl, -⟩ | ⟨hle, h⟩)
        · rfl
        · exact absurd (hfirst x h.mem) (by simp [hle])

/-- Items put between others do not become the last, if each has to come before one in front of it
or may come before one behind it. -/
lemma IsLastBy.insert (h : IsLastBy le x (xs ++ ys))
    (hmid : ∀ m ∈ mid, (∃ z ∈ xs, le z m = false) ∨ ∃ z ∈ ys, le m z = true) :
    IsLastBy le x (xs ++ (mid ++ ys)) := by
  have htotal : ∀ a b, le a b = true ∨ le b a = true :=
    Std.Total.total (r := fun x y => le x y = true)
  have htrans : ∀ a b c, le a b = true → le b c = true → le a c = true :=
    IsTrans.trans (r := fun x y => le x y = true)
  rcases isLastBy_append_iff.mp h with ⟨hx, hys⟩ | ⟨hx, hxs⟩
  · refine isLastBy_append_iff.mpr (Or.inl ⟨hx, List.forall_mem_append.mpr ⟨?_, hys⟩⟩)
    intro m hm
    rw [← Bool.not_eq_true]
    intro hle
    rcases hmid m hm with ⟨z, hz, hzm⟩ | ⟨z, hz, hmz⟩
    · exact Bool.false_ne_true (hzm.symm.trans (htrans z x m (hx.le_of_mem hz) hle))
    · exact Bool.false_ne_true ((hys z hz).symm.trans (htrans x m z hle hmz))
  · refine isLastBy_append_iff.mpr (Or.inr ⟨isLastBy_append_iff.mpr (Or.inr ⟨hx, ?_⟩), hxs⟩)
    intro m hm
    rcases hmid m hm with ⟨z, hz, hzm⟩ | ⟨z, hz, hmz⟩
    · have hmz := (htotal m z).resolve_right (by simp [hzm])
      exact htrans m z x hmz (hxs z hz)
    · exact htrans m z x hmz (hx.le_of_mem hz)

lemma exists_isLastBy (h : xs ≠ []) : ∃ x, IsLastBy le x xs := by
  have hne : sortBy le xs ≠ [] := by
    intro hnil
    obtain ⟨y, hy⟩ := List.exists_mem_of_ne_nil xs h
    have hsorted : y ∈ sortBy le xs := mem_sortBy.mpr hy
    rw [hnil] at hsorted
    cases hsorted
  exact ⟨_, getLast?_sortBy_eq_some_iff.mp (List.getLast?_eq_some_getLast hne)⟩

end Preorder

end ParenLint
