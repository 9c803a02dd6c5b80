import Mathlib.Tactic.IntervalCases
import Mathlib.Tactic.Lemma
import ParenLint.Path.Basic

/-!
# Spelling out paths

A path is read back from its spelling if it has at most two slashes in front and names that can stand
between slashes. Every path that is read is of this form, and so is one that is read and then
continued by such names.
-/

namespace ParenLint.Path

variable {p : Path} {name : String} {names : List String} {cs : List Char}

lemma splitSlashes_eq_splitOn (cs : List Char) : splitSlashes cs = cs.splitOn '/' := by
  induction cs with
  | nil => rfl
  | cons c cs ih =>
    rw [splitSlashes, ih, List.splitOn, List.splitOn, List.splitOnP_cons_eq_if_modifyHead]
    by_cases hc : c = '/'
    · simp [hc]
    · cases hpieces : cs.splitOnP (· == '/') with
      | nil => exact absurd hpieces (List.splitOnP_ne_nil _ _)
      | cons piece pieces => simp [hc]

lemma not_mem_of_mem_splitSlashes {piece : List Char} (h : piece ∈ splitSlashes cs) :
    '/' ∉ piece := by
  induction cs generalizing piece with
  | nil => simp_all [splitSlashes]
  | cons c cs ih =>
    rw [splitSlashes] at h
    split_ifs at h with hc
    · rcases List.mem_cons.mp h with rfl | h
      · simp
      · exact ih h
    · cases hpieces : splitSlashes cs with
      | nil =>
        rw [hpieces] at h
        simpa [List.mem_singleton.mp h] using Ne.symm hc
      | cons first pieces =>
        rw [hpieces] at h ih
        rcases List.mem_cons.mp h with rfl | h
        · simpa using ⟨Ne.symm hc, ih List.mem_cons_self⟩
        · exact ih (List.mem_cons_of_mem _ h)

/-- A name that is kept where a path is read. -/
def IsKept (name : String) : Prop := name ≠ "" ∧ name ≠ "." ∧ '/' ∉ name.toList

instance (name : String) : Decidable (IsKept name) :=
  inferInstanceAs (Decidable (name ≠ "" ∧ name ≠ "." ∧ '/' ∉ name.toList))

/-- A path of the form in which paths are read. -/
structure IsRead (p : Path) : Prop where
  slashes_le : p.slashes ≤ 2
  isKept : ∀ name ∈ p.names, IsKept name

lemma isRead_parse (s : String) : (parse s).IsRead := by
  refine ⟨?_, ?_⟩
  · simp only [parse, keptSlashes]
    split_ifs <;> omega
  · intro name hname
    obtain ⟨hpiece, hkept⟩ := List.mem_filter.mp hname
    obtain ⟨cs, hcs, rfl⟩ := List.mem_map.mp hpiece
    obtain ⟨hne, hdot⟩ := of_decide_eq_true hkept
    exact ⟨hne, hdot, by simpa using not_mem_of_mem_splitSlashes hcs⟩

lemma IsRead.append (h : p.IsRead) (hnames : ∀ name ∈ names, IsKept name) :
    (p.append names).IsRead := by
  refine ⟨h.slashes_le, ?_⟩
  intro name hname
  rcases List.mem_append.mp hname with hname | hname
  · exact h.isKept name hname
  · exact hnames name hname

lemma IsKept.toList_ne_nil (h : IsKept name) : name.toList ≠ [] :=
  fun hnil => h.1 (String.toList_eq_nil_iff.mp hnil)

/-- A spelling without slashes in front does not begin with one. -/
lemma takeWhile_intercalate (hnames : ∀ name ∈ names, IsKept name) :
    (['/'].intercalate (names.map String.toList)).takeWhile (· = '/') = [] := by
  cases names with
  | nil => rfl
  | cons name names =>
    obtain ⟨hname, -⟩ := List.forall_mem_cons.mp hnames
    cases hcs : name.toList with
    | nil => exact absurd hcs hname.toList_ne_nil
    | cons c cs =>
      have hc : c ≠ '/' := by
        rintro rfl
        exact hname.2.2 (by simp [hcs])
      cases names <;> simp [hcs, hc, List.intercalate]

lemma splitSlashes_replicate_append (n : Nat) (cs : List Char) :
    splitSlashes (List.replicate n '/' ++ cs) = List.replicate n [] ++ splitSlashes cs := by
  induction n with
  | zero => rfl
  | succ n ih => simp [List.replicate_succ, splitSlashes, ih]

/-- A path is read back from its spelling. -/
theorem IsRead.parse_render (h : p.IsRead) : parse p.render = p := by
  obtain ⟨slashes, names⟩ := p
  have hle : slashes ≤ 2 := h.slashes_le
  have hnames : ∀ name ∈ names, IsKept name := h.isKept
  by_cases hnil : names = []
  · subst hnil
    interval_cases slashes <;> decide
  · have htext : (render ⟨slashes, names⟩).toList =
        List.replicate slashes '/' ++ ['/'].intercalate (names.map String.toList) := by
      simp [render, hnil]
    have hkept : keptSlashes slashes = slashes := by
      interval_cases slashes <;> rfl
    have hsplit : splitSlashes (['/'].intercalate (names.map String.toList)) =
        names.map String.toList := by
      rw [splitSlashes_eq_splitOn]
      apply List.splitOn_intercalate
      · intro cs hcs
        obtain ⟨name, hname, rfl⟩ := List.mem_map.mp hcs
        exact (hnames name hname).2.2
      · simpa using hnil
    have hslashes : ((render ⟨slashes, names⟩).toList.takeWhile (· = '/')).length = slashes := by
      rw [htext, List.takeWhile_append_of_pos (by simp), takeWhile_intercalate hnames]
      simp
    have hread : ((splitSlashes (render ⟨slashes, names⟩).toList).map String.ofList).filter
        (fun n => n ≠ "" ∧ n ≠ ".") = names := by
      rw [htext, splitSlashes_replicate_append, hsplit]
      have hall : names.filter (fun n => decide (n ≠ "" ∧ n ≠ ".")) = names := by
        apply List.filter_eq_self.mpr
        intro name hname
        exact decide_eq_true ⟨(hnames name hname).1, (hnames name hname).2.1⟩
      simpa [Function.comp_def] using hall
    rw [parse, hslashes, hkept, hread]

end ParenLint.Path
