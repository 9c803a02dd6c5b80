import ParenLint.Proofs.Rule.Balance
import ParenLint.Proofs.Run.Agreement
import ParenLint.Proofs.Run.Workspace

/-!
# Repeated correction comes to an end

A pass takes one opening parenthesis out of the text for each of its corrections, whatever new
conditionals it brings together. So no more passes can correct something than the text has opening
parentheses. A pass without a correction leaves a text in which a lint reports nothing at an `if`.
-/

namespace ParenLint

open ParenLint.Config ParenLint.Swift ParenLint.Text

variable {path : String} {p q : FileProgress} {found : List Correction}
  {founds : List (List Correction)}

/-! ### One pass -/

/-- A pass leads from `p` to `q` and makes the corrections `found`. The text has one opening
parenthesis less for each of them, and is not longer. -/
structure Pass (path : String) (p : FileProgress) (found : List Correction) (q : FileProgress) :
    Prop where
  step_eq : correctStep path p = .ok q
  corrections_eq : q.corrections = p.corrections ++ found
  count_eq : q.file.contents.count '(' + found.length = p.file.contents.count '('
  length_le : q.file.contents.length ≤ p.file.contents.length

lemma Pass.count_lt (h : Pass path p found q) (hfound : found ≠ []) :
    q.file.contents.count '(' < p.file.contents.count '(' := by
  rw [← h.count_eq]
  exact Nat.lt_add_of_pos_right (List.length_pos_iff.mpr hfound)

lemma pass_of_eq_nil (path : String) (h : dueMatches p.file = []) : Pass path p [] p :=
  ⟨correctStep_of_eq_nil path h, (List.append_nil _).symm, rfl, Nat.le_refl _⟩

lemma exists_pass_of_ne_nil (hstore : p.workspace.refusal? path = none)
    (h : dueMatches p.file ≠ []) : ∃ found, Pass path p found (p.unwrapped path) ∧ found ≠ [] := by
  obtain ⟨hcount, hlength⟩ : (unwrapAll (dueMatches p.file) p.file.contents).count '(' +
      (dueMatches p.file).length = p.file.contents.count '(' ∧ _ :=
    count_unwrapAll_rewritten p.file.contents
  refine ⟨_, ⟨correctStep_of_ne_nil hstore h, rfl, ?_, hlength⟩, ?_⟩
  · rw [List.length_map, List.length_reverse]
    exact hcount
  · simpa using h

/-! ### A run of passes -/

/-- Passes lead from `p` to `q`. Each of them makes a correction, and `founds` are all that they
make. -/
inductive Passes (path : String) : FileProgress → List (List Correction) → FileProgress → Prop
  | done {p : FileProgress} : Passes path p [] p
  | pass {p q r : FileProgress} {found : List Correction} {founds : List (List Correction)}
      (hpass : Pass path p found q) (hfound : found ≠ []) (hpasses : Passes path q founds r) :
      Passes path p (found :: founds) r

lemma Passes.correctPasses_eq (h : Passes path p founds q) :
    correctPasses path founds.length p = (q, .ok ()) := by
  induction h with
  | done => rfl
  | pass hpass _ _ ih => simp only [List.length_cons, correctPasses, hpass.step_eq, ih]

/-- Each pass that corrects something is paid for by an opening parenthesis. -/
lemma Passes.length_add_count_le (h : Passes path p founds q) :
    founds.length + q.file.contents.count '(' ≤ p.file.contents.count '(' := by
  induction h with
  | done => exact Nat.le_of_eq (Nat.zero_add _)
  | pass hpass hfound _ ih =>
    have hless := hpass.count_lt hfound
    rw [List.length_cons]
    omega

/-- As long as something is due there is a further pass, which lowers the number of opening
parentheses. -/
lemma exists_passes (hstore : p.workspace.refusal? path = none) :
    ∃ founds q, Passes path p founds q ∧ dueMatches q.file = [] := by
  induction hcount : p.file.contents.count '(' using Nat.strong_induction_on generalizing p with
  | _ n ih =>
    by_cases hdue : dueMatches p.file = []
    · exact ⟨[], p, .done, hdue⟩
    · obtain ⟨found, hpass, hfound⟩ := exists_pass_of_ne_nil hstore hdue
      have hstore' : (p.unwrapped path).workspace.refusal? path = none := by
        simpa [FileProgress.unwrapped] using hstore
      obtain ⟨founds, q, hpasses, hnone⟩ := ih _ (hcount ▸ hpass.count_lt hfound) hstore' rfl
      exact ⟨found :: founds, q, .pass hpass hfound hpasses, hnone⟩

/-- Each pass over a file that can be stored takes out as many opening parentheses as it makes
corrections. Passes that correct something are no more than there are opening parentheses in the
text; they lead to one that corrects nothing, and to a text in which a lint reports nothing at an
`if`. -/
theorem passes_converge (hstore : p.workspace.refusal? path = none) :
    (∃ found q, Pass path p found q) ∧
      ∃ founds q, Passes path p founds q ∧ Pass path q [] q ∧
        correctPasses path founds.length p = (q, .ok ()) ∧
        founds.length ≤ p.file.contents.count '(' ∧
        ∀ settings copies severity,
          Settings.severityFor settings controlStatement.identifier = .ok severity →
            ∃ violations, lintFile settings copies q.file = .ok violations ∧
              ∀ v ∈ violations, ¬ v.IsAtIf q.file.contents := by
  constructor
  · by_cases hdue : dueMatches p.file = []
    · exact ⟨[], p, pass_of_eq_nil path hdue⟩
    · obtain ⟨found, hpass, -⟩ := exists_pass_of_ne_nil hstore hdue
      exact ⟨found, _, hpass⟩
  · obtain ⟨founds, q, hpasses, hnone⟩ := exists_passes hstore
    refine ⟨founds, q, hpasses, pass_of_eq_nil path hnone, hpasses.correctPasses_eq,
      Nat.le_of_add_right_le hpasses.length_add_count_le, ?_⟩
    intro settings copies severity hseverity
    refine ⟨_, lintFile_eq copies q.file hseverity, ?_⟩
    intro v hv
    obtain ⟨vs, hvs, hv⟩ := List.mem_flatten.mp hv
    rw [List.eq_of_mem_replicate hvs] at hv
    exact (forall_not_isAtIf_iff q.file severity).mpr hnone v hv

/-- The first pass makes way for the second, and the file is stored as the second leaves it. -/
theorem passes_converge_of_wrapped_twice :
    let file := SourceFile.ofContents "if ((a)) \x7b".toList (some "a.swift")
    let w : Workspace := ⟨(⟨[(["a.swift"], encode file.contents)], []⟩ : FileTree), [], []⟩
    let p : FileProgress := ⟨w, file, [], []⟩
    p.workspace.refusal? "a.swift" = none ∧
      (correctPasses "a.swift" 1 p).1.file.contents = "if (a) \x7b".toList ∧
      (correctPasses "a.swift" 2 p).1.file.contents = "if a \x7b".toList ∧
      (correctPasses "a.swift" 2 p).1.workspace.tree.bytesAt? ["a.swift"] =
        some (encode "if a \x7b".toList) ∧
      ∃ founds q, Passes "a.swift" p founds q ∧ Pass "a.swift" q [] q ∧ founds.length ≤ 2 := by
  intro file w p
  have hstore : p.workspace.refusal? "a.swift" = none := rfl
  obtain ⟨-, founds, q, hpasses, hlast, -, hlength, -⟩ := passes_converge hstore
  exact ⟨hstore, by decide +kernel, by decide +kernel, by decide +kernel, founds, q, hpasses, hlast,
    hlength⟩

end ParenLint
