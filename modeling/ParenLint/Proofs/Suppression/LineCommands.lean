import ParenLint.Proofs.Source.Position
import ParenLint.Proofs.Suppression.Deciding
import ParenLint.Swift.Lexeme

/-!
# Commands for one line

A command with a modifier acts from the beginning of its target line and is undone at the end of it.
If the commands that name a rule all disable it on single lines, it is disabled on these lines only.
But the undoing is the opposite action, not a return to what was before: it also ends a region that
an earlier command has opened.
-/

namespace ParenLint.Command

open ParenLint.Swift

variable {c d : Command} {cs : List Command} {rule : String} {target line character : Int}

/-! ### The two ends of a line -/

/-- The line that a command with a modifier is limited to. -/
def target? (c : Command) : Option Int := c.modifier.map (·.target c.line)

/-- What a command does at the beginning of its target line. -/
def opening (c : Command) (target : Int) : Command := ⟨c.action, c.rules, target, 0, none⟩

/-- What undoes a command at the end of its target line. -/
def revert (c : Command) (target : Int) : Command :=
  ⟨c.action.inverse, c.rules, target, endOfLine, none⟩

lemma expand_of_target? (h : c.target? = some target) :
    c.expand = [c.opening target, c.revert target] := by
  obtain ⟨m, hm, rfl⟩ := Option.map_eq_some_iff.mp h
  rw [expand, hm]
  rfl

lemma opening_actsBy_iff : (c.opening target).ActsBy line character ↔
    target < line ∨ target = line ∧ 0 ≤ character :=
  Iff.rfl

lemma revert_actsBy_iff : (c.revert target).ActsBy line character ↔
    target < line ∨ target = line ∧ endOfLine ≤ character :=
  Iff.rfl

lemma endOfLine_pos : 0 < endOfLine := by decide

/-! ### Lines that are disabled -/

/-- Among other commands, some before a command with a modifier and some after it, there is one that
switches the rule between the end of the target line and a place. -/
def SwitchedBehind (before after : List Command) (rule : String) (target line character : Int) :
    Prop :=
  (∃ d ∈ switching rule line character (before.flatMap expand), ¬ d.ActsBy target endOfLine) ∨
    ∃ d ∈ switching rule line character (after.flatMap expand),
      target < d.line ∨ target = d.line ∧ endOfLine ≤ d.character

instance (before after : List Command) (rule : String) (target line character : Int) :
    Decidable (SwitchedBehind before after rule target line character) :=
  inferInstanceAs (Decidable (_ ∨ _))

lemma switching_expand_of_lt (h : c.target? = some target) (hlt : line < target) :
    switching rule line character c.expand = [] := by
  have hopening : ¬ (c.opening target).ActsBy line character := by
    rw [opening_actsBy_iff]
    omega
  have hrevert : ¬ (c.revert target).ActsBy line character := by
    rw [revert_actsBy_iff]
    omega
  simp [switching, expand_of_target? h, hopening, hrevert]

lemma switching_expand_of_gt (h : c.target? = some target) (hrule : rule ∈ c.rules)
    (hgt : target < line) :
    switching rule line character c.expand = [c.opening target, c.revert target] := by
  rw [expand_of_target? h, switching, List.filter_eq_self]
  intro d hd
  apply decide_eq_true
  rcases List.mem_pair.mp hd with rfl | rfl
  · exact ⟨hrule, opening_actsBy_iff.mpr (Or.inl hgt)⟩
  · exact ⟨hrule, revert_actsBy_iff.mpr (Or.inl hgt)⟩

variable {pre post : List Command}

lemma switching_around : switching rule line character ((pre ++ c :: post).flatMap expand) =
    switching rule line character (pre.flatMap expand) ++
      (switching rule line character c.expand ++
        switching rule line character (post.flatMap expand)) := by
  rw [List.flatMap_append, List.flatMap_cons, switching_append, switching_append]

/-- What switches the rule behind the target line decides, with the command or without it. -/
lemma SwitchedBehind.enabledAt_eq (hbehind : SwitchedBehind pre post rule target line character)
    (h : c.target? = some target) (hrule : rule ∈ c.rules) (hgt : target < line) :
    enabledAt (sort ((pre ++ c :: post).flatMap expand)) rule line character =
      enabledAt (sort ((pre ++ post).flatMap expand)) rule line character := by
  have hne : switching rule line character ((pre ++ post).flatMap expand) ≠ [] := by
    rw [List.flatMap_append, switching_append]
    rcases hbehind with ⟨d, hd, -⟩ | ⟨d, hd, -⟩
    · exact List.append_ne_nil_of_left_ne_nil (List.ne_nil_of_mem hd) _
    · exact List.append_ne_nil_of_right_ne_nil _ (List.ne_nil_of_mem hd)
  obtain ⟨x, hx⟩ := exists_decides hne
  have hx' : Decides x rule line character ((pre ++ c :: post).flatMap expand) := by
    rw [Decides, List.flatMap_append, switching_append] at hx
    rw [Decides, switching_around, switching_expand_of_gt h hrule hgt]
    apply hx.insert
    have hpos := endOfLine_pos
    rcases hbehind with ⟨d, hd, hafter⟩ | ⟨d, hd, hafter⟩
    · intro m hm
      refine Or.inl ⟨d, hd, decide_eq_false ?_⟩
      rcases List.mem_pair.mp hm with rfl | rfl
      · intro hacts
        simp only [ActsBy, opening] at hacts hafter
        omega
      · exact hafter
    · intro m hm
      refine Or.inr ⟨d, hd, decide_eq_true ?_⟩
      rcases List.mem_pair.mp hm with rfl | rfl
      · rw [opening_actsBy_iff]
        omega
      · exact hafter
  rw [hx.enabledAt_eq, hx'.enabledAt_eq]

/-- If nothing else switches the rule behind the target line, what undoes the command decides. -/
lemma decides_revert (hbehind : ¬ SwitchedBehind pre post rule target line character)
    (h : c.target? = some target) (hrule : rule ∈ c.rules) (hgt : target < line) :
    Decides (c.revert target) rule line character ((pre ++ c :: post).flatMap expand) := by
  rw [SwitchedBehind, not_or] at hbehind
  obtain ⟨hpre, hpost⟩ := hbehind
  push Not at hpre hpost
  refine ⟨switching rule line character (pre.flatMap expand) ++ [c.opening target],
    switching rule line character (post.flatMap expand), ?_, ?_, ?_⟩
  · rw [switching_around, switching_expand_of_gt h hrule hgt, List.append_assoc,
      List.cons_append, List.cons_append, List.nil_append, List.cons_append, List.nil_append]
  · intro d hd
    apply decide_eq_true
    rcases List.mem_append.mp hd with hd | hd
    · exact hpre d hd
    · rw [List.mem_singleton.mp hd]
      exact opening_actsBy_iff.mpr (Or.inr ⟨rfl, Int.le_of_lt endOfLine_pos⟩)
  · intro d hd
    apply decide_eq_false
    intro hacts
    obtain ⟨hle, hlt⟩ := hpost d hd
    rcases revert_actsBy_iff.mp hacts with hline | ⟨hline, hcharacter⟩
    · omega
    · exact absurd hcharacter (Int.not_le.mpr (hlt hline))

/-- Off its target line a command with a modifier makes no difference, unless the rule is one that
it names, the line comes later and nothing else switches the rule in between: there what undoes the
command decides, whatever held before it. -/
theorem enabled_off_target_line (htarget : c.target? = some target) (file : SourceFile)
    (rule : String) {offset : Int} (hline : (file.location offset).line ≠ target) :
    let l := file.location offset
    let present := isEnabled (sort ((pre ++ c :: post).flatMap expand)) file rule offset
    let absent := isEnabled (sort ((pre ++ post).flatMap expand)) file rule offset
    let decided := rule ∈ c.rules ∧ target < l.line ∧
      ¬ SwitchedBehind pre post rule target l.line l.character
    (decided → present = decide (c.action = .disable)) ∧
      (present = absent ↔ decided → absent = decide (c.action = .disable)) := by
  intro l present absent decided
  have hdecided : decided → present = decide (c.action = .disable) := by
    rintro ⟨hrule, hgt, hbehind⟩
    have heq : present = decide (c.action.inverse = .enable) :=
      (decides_revert hbehind htarget hrule hgt).enabledAt_eq
    rw [heq]
    cases c.action <;> rfl
  have hother : ¬ decided → present = absent := by
    intro hnot
    by_cases hrule : rule ∈ c.rules
    · rcases Int.lt_or_gt_of_ne hline with hlt | hgt
      · apply enabledAt_congr
        rw [switching_around, switching_expand_of_lt htarget hlt, List.nil_append,
          ← switching_append, ← List.flatMap_append]
      · have hbehind : SwitchedBehind pre post rule target l.line l.character := by
          by_contra hbehind
          exact hnot ⟨hrule, hgt, hbehind⟩
        exact hbehind.enabledAt_eq htarget hrule hgt
    · apply enabledAt_congr_of_filter_eq
      simp [hrule]
  refine ⟨hdecided, ?_⟩
  constructor
  · intro heq hd
    rw [← heq, hdecided hd]
  · intro habsent
    by_cases hd : decided
    · rw [hdecided hd, habsent hd]
    · exact hother hd

/-- A command for the second line ends the region that the first line opens. -/
theorem reenabled_behind_target_line :
    let contents := ("// swiftlint:disable r\na // swiftlint:disable:this r\nb").toList
    let file := SourceFile.ofContents contents none
    let plain : Command := ⟨.disable, ["r"], 1, 4, none⟩
    let line : Command := ⟨.disable, ["r"], 2, 6, some .this⟩
    inComments file (tokens contents) = [plain] ++ line :: [] ∧
    line.target? = some 2 ∧ (file.location 53).line = 3 ∧
    isEnabled (sort ([plain].flatMap expand)) file "r" 53 = false ∧
    isEnabled (regions file (tokens contents)) file "r" 53 = true := by
  intro contents file plain line
  have hcommands : inComments file (tokens contents) = [plain] ++ line :: [] := by
    decide +kernel
  have hlocation : (file.location 53).line = 3 ∧ (file.location 53).character = 1 := by
    decide +kernel
  have hne : (file.location 53).line ≠ 2 := by
    rw [hlocation.1]
    decide
  have hbehind : ¬ SwitchedBehind [plain] [] "r" 2 (file.location 53).line
      (file.location 53).character := by
    rw [hlocation.1, hlocation.2]
    decide
  refine ⟨hcommands, rfl, hlocation.1, by decide +kernel, ?_⟩
  rw [regions, hcommands]
  exact (enabled_off_target_line rfl file "r" hne).1 ⟨by decide, by omega, hbehind⟩

end ParenLint.Command
