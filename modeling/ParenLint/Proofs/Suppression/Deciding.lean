import Mathlib.Data.List.Induction
import ParenLint.Proofs.Order.StableSort
import ParenLint.Suppression.Region

/-!
# The command that decides

Whether a rule is enabled at a place depends on one command only: of those that name the rule and
act no later than the place, the last in the order of their own places. Where several stand at one
place it is the one that comes last in the file.
-/

namespace ParenLint.Command

variable {c d : Command} {cs cs' : List Command} {rule : String} {line character : Int}

/-! ### The order of commands -/

instance : Std.Total fun c d : Command => decide (c.ActsBy d.line d.character) = true where
  total c d := by
    rw [decide_eq_true_iff, decide_eq_true_iff, ActsBy, ActsBy]
    omega

instance : IsTrans Command fun c d => decide (c.ActsBy d.line d.character) = true where
  trans c d e := by
    rw [decide_eq_true_iff, decide_eq_true_iff, decide_eq_true_iff, ActsBy, ActsBy, ActsBy]
    omega

/-- A command acts by every place that a later command acts by. -/
lemma ActsBy.trans (hcd : c.ActsBy d.line d.character) (hd : d.ActsBy line character) :
    c.ActsBy line character := by
  simp only [ActsBy] at hcd hd ⊢
  omega

/-! ### The commands that count -/

/-- The commands that name a rule and act no later than a place. -/
def switching (rule : String) (line character : Int) (cs : List Command) : List Command :=
  cs.filter fun c => rule ∈ c.rules ∧ c.ActsBy line character

lemma mem_switching : c ∈ switching rule line character cs ↔
    c ∈ cs ∧ rule ∈ c.rules ∧ c.ActsBy line character := by
  rw [switching, List.mem_filter, decide_eq_true_iff]

lemma switching_append : switching rule line character (cs ++ cs') =
    switching rule line character cs ++ switching rule line character cs' :=
  List.filter_append ..

lemma switching_filter : switching rule line character (cs.filter fun c => rule ∈ c.rules) =
    switching rule line character cs := by
  rw [switching, switching, List.filter_filter]
  congr
  funext c
  by_cases hrule : rule ∈ c.rules <;> simp [hrule]

/-- Switching one command after the other leaves what the last one says that names the rule. -/
lemma foldl_switch (rule : String) (cs : List Command) :
    cs.foldl (switch rule) true = (((cs.filter fun c => rule ∈ c.rules).getLast?.map fun c =>
      decide (c.action = .enable)).getD true) := by
  induction cs using List.reverseRecOn with
  | nil => rfl
  | append_singleton cs c ih =>
    rw [List.foldl_append, List.foldl_cons, List.foldl_nil, List.filter_append, switch, ih]
    by_cases hrule : rule ∈ c.rules
    · simp [hrule]
    · simp [hrule]

/-- The enablement of a rule at a place, from the last command that counts. -/
lemma enabledAt_sort (cs : List Command) (rule : String) (line character : Int) :
    enabledAt (sort cs) rule line character =
      (((sort (switching rule line character cs)).getLast?.map fun c =>
        decide (c.action = .enable)).getD true) := by
  have hsorted : (sort cs).Pairwise fun c d => decide (d.ActsBy line character) = true →
      decide (c.ActsBy line character) = true := by
    apply (pairwise_sortBy cs).imp
    intro c d hcd hd
    exact decide_eq_true ((of_decide_eq_true hcd).trans (of_decide_eq_true hd))
  rw [enabledAt, takeWhile_eq_filter hsorted, foldl_switch, List.filter_filter, sort,
    filter_sortBy, switching, sort]
  congr 5
  funext c
  simp

/-- The command is the last of those that name a rule and act no later than a place. -/
def Decides (c : Command) (rule : String) (line character : Int) (cs : List Command) : Prop :=
  IsLastBy (fun c d => c.ActsBy d.line d.character) c (switching rule line character cs)

namespace Decides

lemma mem (h : Decides c rule line character cs) :
    c ∈ cs ∧ rule ∈ c.rules ∧ c.ActsBy line character :=
  mem_switching.mp (IsLastBy.mem h)

lemma actsBy (h : Decides c rule line character cs)
    (hd : d ∈ switching rule line character cs) : d.ActsBy c.line c.character :=
  of_decide_eq_true (IsLastBy.le_of_mem h hd)

/-- The rule is enabled if the command that decides is one that enables it. -/
theorem enabledAt_eq (h : Decides c rule line character cs) :
    enabledAt (sort cs) rule line character = decide (c.action = .enable) := by
  rw [enabledAt_sort, sort, getLast?_sortBy_eq_some_iff.mpr h]
  rfl

end Decides

/-- A rule that no command has switched is enabled. -/
lemma enabledAt_of_eq_nil (h : switching rule line character cs = []) :
    enabledAt (sort cs) rule line character = true := by
  rw [enabledAt_sort, h]
  rfl

lemma exists_decides (h : switching rule line character cs ≠ []) :
    ∃ c, Decides c rule line character cs :=
  exists_isLastBy h

/-- A rule is disabled exactly if a command that disables it decides. -/
theorem enabledAt_eq_false_iff : enabledAt (sort cs) rule line character = false ↔
    ∃ c, Decides c rule line character cs ∧ c.action = .disable := by
  constructor
  · intro hfalse
    have hne : switching rule line character cs ≠ [] := by
      intro hnil
      rw [enabledAt_of_eq_nil hnil] at hfalse
      cases hfalse
    obtain ⟨c, hc⟩ := exists_decides hne
    refine ⟨c, hc, ?_⟩
    rw [hc.enabledAt_eq] at hfalse
    cases haction : c.action with
    | enable => simp [haction] at hfalse
    | disable => rfl
  · rintro ⟨c, hc, haction⟩
    rw [hc.enabledAt_eq, haction]
    rfl

/-! ### Expanded commands -/

lemma rules_of_mem_expand (h : d ∈ c.expand) : d.rules = c.rules := by
  rw [expand] at h
  split at h
  · rw [List.mem_singleton.mp h]
  · rcases List.mem_cons.mp h with rfl | h
    · rfl
    · rw [List.mem_singleton.mp h]

/-- Of the expanded commands only those count that come from commands that name the rule. -/
lemma switching_flatMap_expand (rule : String) (line character : Int) (cs : List Command) :
    switching rule line character (cs.flatMap expand) =
      switching rule line character ((cs.filter fun c => rule ∈ c.rules).flatMap expand) := by
  induction cs with
  | nil => rfl
  | cons c cs ih =>
    by_cases hrule : rule ∈ c.rules
    · simp only [List.filter_cons, hrule, decide_true, if_true, List.flatMap_cons,
        switching_append, ih]
    · have hnone : switching rule line character c.expand = [] := by
        rw [switching, List.filter_eq_nil_iff]
        intro d hd hcounts
        have hnames := (of_decide_eq_true hcounts).1
        rw [rules_of_mem_expand hd] at hnames
        exact hrule hnames
      simp only [List.filter_cons, hrule, decide_false, Bool.false_eq_true, if_false,
        List.flatMap_cons, switching_append, hnone, List.nil_append, ih]

lemma enabledAt_congr
    (h : switching rule line character cs = switching rule line character cs') :
    enabledAt (sort cs) rule line character = enabledAt (sort cs') rule line character := by
  rw [enabledAt_sort, h, ← enabledAt_sort]

/-- Commands that do not name a rule do not matter for it, whatever their modifiers. -/
theorem enabledAt_congr_of_filter_eq
    (h : (cs.filter fun c => rule ∈ c.rules) = cs'.filter fun c => rule ∈ c.rules) :
    enabledAt (sort (cs.flatMap expand)) rule line character =
      enabledAt (sort (cs'.flatMap expand)) rule line character := by
  apply enabledAt_congr
  rw [switching_flatMap_expand, h, ← switching_flatMap_expand]

end ParenLint.Command
