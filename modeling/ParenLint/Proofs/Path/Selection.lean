import Mathlib.Data.List.Infix
import ParenLint.Path.Selection
import ParenLint.Proofs.Path.Spelling

/-!
# Selected paths

Where the names of a path lead is told by counting: a double dot takes back the last name before it
that is not yet taken back, or else goes up from where the path begins. A path is selected by the
components of the place that it names, and these are compared with those of the roots one by one.
-/

namespace ParenLint.Path

variable {cwd place root : Place} {name : String} {names rest : List String} {k : Nat}

/-! ### Going back -/

/-- By how much going back outnumbers going on along names. -/
def surplus (names : List String) : Nat := 2 * names.count ".." - names.length

/-- How far along names one comes to stand above where one began. -/
def climb (names : List String) : Nat := (names.inits.map surplus).foldr max 0

/-- The names that are not taken back by double dots behind them. -/
def remaining : List String → List String
  | [] => []
  | name :: rest =>
    if name ≠ ".." ∧ ∀ front ∈ rest.inits, surplus front = 0 then name :: remaining rest
    else remaining rest

lemma foldr_max_le_iff {ns : List Nat} : ns.foldr max 0 ≤ k ↔ ∀ n ∈ ns, n ≤ k := by
  induction ns with
  | nil => simp
  | cons n ns ih => simp [ih]

lemma climb_le_iff :
    climb names ≤ k ↔ ∀ front, front <+: names → 2 * front.count ".." ≤ front.length + k := by
  simp only [climb, foldr_max_le_iff, List.forall_mem_map, List.mem_inits, surplus,
    Nat.sub_le_iff_le_add']

lemma climb_eq_zero_iff : climb names = 0 ↔ ∀ front ∈ names.inits, surplus front = 0 := by
  rw [← Nat.le_zero, climb, foldr_max_le_iff]
  simp only [List.forall_mem_map, Nat.le_zero]

lemma remaining_cons (name : String) (rest : List String) :
    remaining (name :: rest) =
      if name ≠ ".." ∧ climb rest = 0 then name :: remaining rest else remaining rest := by
  simp only [remaining, climb_eq_zero_iff]

lemma climb_nil : climb [] = 0 := rfl

lemma climb_dots (rest : List String) : climb (".." :: rest) = climb rest + 1 := by
  refine eq_of_forall_ge_iff fun k => ?_
  rw [climb_le_iff]
  constructor
  · intro h
    have hone := h [".."] (List.prefix_append [".."] rest)
    obtain ⟨k, rfl⟩ : ∃ j, k = j + 1 := Nat.exists_eq_succ_of_ne_zero (by rintro rfl; simp at hone)
    refine Nat.succ_le_succ (climb_le_iff.mpr fun front hfront => ?_)
    have hmore := h (".." :: front) (List.cons_prefix_cons.mpr ⟨rfl, hfront⟩)
    simp only [List.count_cons_self, List.length_cons] at hmore
    omega
  · intro h front hfront
    cases front with
    | nil => simp
    | cons name front =>
      obtain ⟨rfl, htail⟩ := List.cons_prefix_cons.mp hfront
      have hrest := climb_le_iff.mp (Nat.le_refl (climb rest)) front htail
      simp only [List.count_cons_self, List.length_cons]
      omega

lemma climb_cons (hname : name ≠ "..") (rest : List String) :
    climb (name :: rest) = climb rest - 1 := by
  refine eq_of_forall_ge_iff fun k => ?_
  rw [climb_le_iff, Nat.sub_le_iff_le_add, climb_le_iff]
  constructor
  · intro h front hfront
    have hmore := h (name :: front) (List.cons_prefix_cons.mpr ⟨rfl, hfront⟩)
    rw [List.count_cons_of_ne hname, List.length_cons] at hmore
    omega
  · intro h front hfront
    cases front with
    | nil => simp
    | cons name' front =>
      obtain ⟨rfl, htail⟩ := List.cons_prefix_cons.mp hfront
      have hrest := h front htail
      rw [List.count_cons_of_ne hname, List.length_cons]
      omega

/-- Along names one comes to the names that remain, beneath the place that one has climbed to. The
root is not left, however often one goes back from it. -/
theorem foldl_step_eq (names : List String) (place : Place) :
    names.foldl step place = place.take (place.length - climb names) ++ remaining names := by
  induction names generalizing place with
  | nil => simp [climb_nil, remaining]
  | cons name rest ih =>
    rw [List.foldl_cons, ih, step, remaining_cons]
    by_cases hname : name = ".."
    · subst hname
      have hlevel : min (place.length - 1 - climb rest) (place.length - 1) =
          place.length - (climb rest + 1) := by omega
      rw [if_pos rfl, if_neg (by simp), climb_dots, List.dropLast_eq_take, List.take_take,
        List.length_take, Nat.min_eq_left (Nat.sub_le _ _), hlevel]
    · rw [if_neg hname, climb_cons hname, List.length_append, List.length_singleton]
      by_cases hstays : climb rest = 0
      · rw [if_pos ⟨hname, hstays⟩, hstays, List.take_of_length_le (by simp),
          List.take_of_length_le (by simp), List.append_assoc, List.singleton_append]
      · have hlevel : place.length + 1 - climb rest = place.length - (climb rest - 1) := by omega
        rw [if_neg fun h => hstays h.2, hlevel, List.take_append_of_le_length (Nat.sub_le _ _)]

/-! ### Components -/

/-- The components of the place that a text names: it is cut at slashes, empty pieces and single
dots are left out, and what remains is put behind what is left of the current directory, or behind
the root if the text begins with a slash. -/
def components (cwd : Place) (path : String) : Place :=
  let names := ((path.toList.splitOn '/').map String.ofList).filter fun n => n ≠ "" ∧ n ≠ "."
  let start := if path.toList.head? = some '/' then [] else cwd
  start.take (start.length - climb names) ++ remaining names

/-- A read path is relative if its text does not begin with a slash. -/
lemma slashes_parse_eq_zero_iff (path : String) :
    (parse path).slashes = 0 ↔ path.toList.head? ≠ some '/' := by
  have hkept : ∀ n, keptSlashes n = 0 ↔ n = 0 := by
    intro n
    by_cases hn : n = 2 <;> simp [keptSlashes, hn]
  rw [parse, hkept, List.length_eq_zero_iff]
  cases path.toList with
  | nil => simp
  | cons c cs => by_cases hc : c = '/' <;> simp [hc]

theorem resolve_parse (cwd : Place) (path : String) :
    resolve cwd (parse path) = components cwd path := by
  have hstart : (if (parse path).slashes = 0 then cwd else []) =
      if path.toList.head? = some '/' then [] else cwd := by
    simp only [slashes_parse_eq_zero_iff, ite_not]
  rw [resolve, hstart, foldl_step_eq]
  simp only [parse, splitSlashes_eq_splitOn]
  rfl

/-- The places above a place are those of which it continues the components. -/
lemma mem_upward_iff : root ∈ upward place ↔ root <+: place := by
  simp only [upward, List.mem_map, List.mem_reverse, List.mem_range, List.prefix_iff_eq_take]
  constructor
  · rintro ⟨n, hn, rfl⟩
    rw [List.length_take_of_le (Nat.le_of_lt_succ hn)]
  · intro h
    refine ⟨root.length, ?_, h.symm⟩
    rw [h, List.length_take]
    omega

/-! ### Selection -/

/-- Of some paths those are kept, in their order and spelling, whose components continue those of an
included root, if there are any, and of no excluded one. The components of a root are continued by
those of a path exactly if its place is met on the way up from the place of the path. -/
theorem select_by_components (cwd : Place) (included excluded paths : List String) :
    select cwd included excluded paths = paths.filter (fun path =>
      (included = [] ∨ ∃ root ∈ included, components cwd root <+: components cwd path) ∧
        ∀ root ∈ excluded, ¬ components cwd root <+: components cwd path) ∧
    ∀ path root : String, components cwd root <+: components cwd path ↔
      resolve cwd (parse root) ∈ upward (resolve cwd (parse path)) := by
  constructor
  · apply List.filter_congr
    intro path _
    rw [Bool.eq_iff_iff]
    simp only [liesUnder, isUnder, resolve_parse, Bool.and_eq_true, Bool.or_eq_true,
      Bool.not_eq_true', List.isEmpty_iff, List.any_eq_true, List.any_eq_false,
      List.isPrefixOf_iff_prefix, decide_eq_true_eq]
  · intro path root
    rw [mem_upward_iff, resolve_parse, resolve_parse]

/-- A sibling whose name begins alike is no component, and what is excluded is not included. -/
example : select ["home", "me"] ["lib", "../me/./lib/"] ["/home/me//lib/gen"]
    ["library/a.swift", "lib/../../me/lib/b.swift", "lib/gen/c.swift"] =
      ["lib/../../me/lib/b.swift"] := by
  decide +kernel

end ParenLint.Path
