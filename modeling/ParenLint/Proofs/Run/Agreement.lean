import ParenLint.Proofs.Rule.Reported
import ParenLint.Proofs.Rule.Rewriting
import ParenLint.Run.Autocorrect

/-!
# Lint and correction agree

What a pass of the rule unwraps in a file are the violations at an `if` that a lint of the file
reports: the search finds the same matches whether or not it records their bodies, and both leave
out the regions where the rule is suppressed.
-/

namespace ParenLint

open ParenLint.Config ParenLint.Swift ParenLint.Text

variable {file : SourceFile} {kindAt : Nat → TokenKind} {contents : List Char}

/-! ### Violations at an `if` -/

/-- The text begins with `if` where the violation stands. -/
def Violation.IsAtIf (v : Violation) (contents : List Char) : Prop :=
  "if".toList <+: contents.drop v.location.offset.toNat

instance (v : Violation) (contents : List Char) : Decidable (v.IsAtIf contents) :=
  inferInstanceAs (Decidable (_ <+: _))

/-- Of the conditionals, only those of the kind `if` begin with it. -/
lemma isAtIf_iff {kind : StatementKind} {offset : Nat} {severity : Severity}
    (h : offset ∈ wrappedOffsets kindAt file.contents kind) :
    (controlStatement.violation severity (file.location offset)).IsAtIf file.contents ↔
      kind = .if := by
  obtain ⟨-, before, c, rest, hcontents, rfl, -⟩ := exists_of_mem_wrappedOffsets h
  have hdrop : file.contents.drop before.length = kind.keyword.toList ++ c :: rest := by
    rw [hcontents, List.drop_left]
  change StatementKind.if.keyword.toList <+: file.contents.drop before.length ↔ kind = .if
  rw [hdrop]
  constructor
  · rintro ⟨tail, htail⟩
    exact (StatementKind.eq_of_keyword_append_eq htail).symm
  · rintro rfl
    exact ⟨c :: rest, rfl⟩

/-- The violations of the kind `if` stand at an `if`, and those of other kinds do not. -/
lemma filter_isAtIf_kind (file : SourceFile) (kindAt : Nat → TokenKind) (severity : Severity)
    (kind : StatementKind) :
    ((wrappedOffsets kindAt file.contents kind).map fun offset : Nat =>
        controlStatement.violation severity (file.location offset)).filter
          (fun v => v.IsAtIf file.contents) =
      if kind = .if then (wrappedOffsets kindAt file.contents kind).map fun offset : Nat =>
        controlStatement.violation severity (file.location offset)
      else [] := by
  split_ifs with hkind
  · rw [List.filter_eq_self]
    intro v hv
    obtain ⟨offset, hoffset, rfl⟩ := List.mem_map.mp hv
    exact decide_eq_true ((isAtIf_iff hoffset).mpr hkind)
  · rw [List.filter_eq_nil_iff]
    intro v hv hat
    obtain ⟨offset, hoffset, rfl⟩ := List.mem_map.mp hv
    exact hkind ((isAtIf_iff hoffset).mp (of_decide_eq_true hat))

lemma filter_isAtIf_check (file : SourceFile) (kindAt : Nat → TokenKind) (severity : Severity) :
    (check file kindAt severity).filter (fun v => v.IsAtIf file.contents) =
      (wrappedOffsets kindAt file.contents .if).map fun offset : Nat =>
        controlStatement.violation severity (file.location offset) := by
  rw [check_eq_flatMap, List.filter_flatMap]
  simp only [filter_isAtIf_kind]
  simp [StatementKind.all]

/-! ### What a pass unwraps -/

/-- The matches that a pass of the rule over a file unwraps. -/
def dueMatches (file : SourceFile) : List Match :=
  let ts := tokens file.contents
  rewritten (fun o => Token.kindAt ts o) (Command.keepEnabled (Command.regions file ts) file)
    file.contents

/-- Recording the bodies does not change where wrapped conditionals are found. -/
lemma map_start_wrapped_correctable :
    (Pattern.correctable.wrapped kindAt contents).map Match.start =
      wrappedOffsets kindAt contents .if := by
  have hwrapped : (Pattern.statement .if).wrapped kindAt contents =
      (Pattern.correctable.wrapped kindAt contents).map Match.withoutCapture := by
    rw [Pattern.wrapped, Pattern.wrapped, Pattern.matches, Pattern.matches,
      Pattern.statement_eq_conditional, ← Pattern.matchesFrom_conditional_map, List.filter_map]
    rfl
  rw [wrappedOffsets, hwrapped, List.map_map]
  rfl

/-- A wrapped condition is unwrapped if the rule is enabled where it begins: the spans that the
regions return are those of the matches that were asked about. -/
lemma dueMatches_eq_filter (file : SourceFile) :
    dueMatches file =
      (Pattern.correctable.wrapped (fun o => Token.kindAt (tokens file.contents) o)
        file.contents).filter fun m => Command.isEnabled
          (Command.regions file (tokens file.contents)) file controlStatement.identifier
          m.start := by
  rw [dueMatches, rewritten]
  apply List.filter_congr
  intro m hm
  have hspan : m.span ∈ (Pattern.correctable.wrapped
      (fun o => Token.kindAt (tokens file.contents) o) file.contents).map Match.span :=
    List.mem_map_of_mem hm
  rw [Bool.eq_iff_iff, decide_eq_true_iff, Command.keepEnabled, List.mem_filter]
  exact and_iff_right hspan

/-- A pass unwraps the conditions at which a lint reports a violation at an `if`. -/
theorem filter_isAtIf_unsuppressed (file : SourceFile) (severity : Severity) :
    (unsuppressed file severity).filter (fun v => v.IsAtIf file.contents) =
      (dueMatches file).map fun m =>
        controlStatement.violation severity (file.location m.start) := by
  have hstarts : (dueMatches file).map Match.start =
      (wrappedOffsets (fun o => Token.kindAt (tokens file.contents) o) file.contents .if).filter
        fun offset : Nat => Command.isEnabled (Command.regions file (tokens file.contents)) file
          controlStatement.identifier offset := by
    rw [dueMatches_eq_filter, ← map_start_wrapped_correctable, List.filter_map]
    rfl
  have hcomm : (unsuppressed file severity).filter (fun v => v.IsAtIf file.contents) =
      ((check file (fun o => Token.kindAt (tokens file.contents) o) severity).filter
        fun v => v.IsAtIf file.contents).filter fun v => Command.isEnabled
          (Command.regions file (tokens file.contents)) file v.ruleId v.location.offset :=
    List.filter_comm ..
  have hmap : (dueMatches file).map (fun m =>
        controlStatement.violation severity (file.location m.start)) =
      ((dueMatches file).map Match.start).map fun offset : Nat =>
        controlStatement.violation severity (file.location offset) := by
    rw [List.map_map]
    rfl
  rw [hcomm, filter_isAtIf_check, List.filter_map, hmap, hstarts]
  rfl

lemma locations_isAtIf (file : SourceFile) (severity : Severity) :
    ((unsuppressed file severity).filter fun v => v.IsAtIf file.contents).map Violation.location =
      (dueMatches file).map fun m => file.location m.start := by
  rw [filter_isAtIf_unsuppressed, List.map_map]
  rfl

/-- A lint reports nothing at an `if` exactly if a pass has nothing to unwrap. -/
lemma forall_not_isAtIf_iff (file : SourceFile) (severity : Severity) :
    (∀ v ∈ unsuppressed file severity, ¬ v.IsAtIf file.contents) ↔ dueMatches file = [] := by
  have hfilter := filter_isAtIf_unsuppressed file severity
  rw [← List.map_eq_nil_iff, ← hfilter, List.filter_eq_nil_iff]
  simp only [decide_eq_true_eq]

/-- The progress after a pass that stores the text with all due matches unwrapped. -/
def FileProgress.unwrapped (path : String) (p : FileProgress) : FileProgress :=
  let text := unwrapAll (dueMatches p.file) p.file.contents
  { workspace := p.workspace.store path text
    file := { p.file with contents := text, lineStarts := lineStarts text }
    events := p.events ++ [.wrote text.length path]
    corrections := p.corrections ++ (dueMatches p.file).reverse.map fun m =>
      controlStatement.correction (p.file.location m.start) }

/-- A pass without a due match changes nothing, whether or not the file could be stored. -/
lemma correctStep_of_eq_nil (path : String) {p : FileProgress} (h : dueMatches p.file = []) :
    correctStep path p = .ok p := by
  have hrun : (correctOnce p.file (p.workspace.refusal? path)).written = [] ∧
      (correctOnce p.file (p.workspace.refusal? path)).file = p.file ∧
      (correctOnce p.file (p.workspace.refusal? path)).outcome = .ok [] := correct_of_eq_nil h
  simp [correctStep, hrun]

/-- A pass that may store the file unwraps all due matches. -/
lemma correctStep_of_ne_nil {path : String} {p : FileProgress}
    (hstore : p.workspace.refusal? path = none) (h : dueMatches p.file ≠ []) :
    correctStep path p = .ok (p.unwrapped path) := by
  have hrun : (correctOnce p.file none).written = [unwrapAll (dueMatches p.file) p.file.contents] ∧
      (correctOnce p.file none).outcome = .ok ((dueMatches p.file).reverse.map fun m =>
        controlStatement.correction (p.file.location m.start)) := correct_of_ne_nil h
  have hfile : (correctOnce p.file none).file =
      { p.file with
        contents := unwrapAll (dueMatches p.file) p.file.contents
        lineStarts := lineStarts (unwrapAll (dueMatches p.file) p.file.contents) } :=
    file_correct_of_ne_nil h
  simp [correctStep, hstore, hrun, hfile, FileProgress.unwrapped]

/-! ### Agreement -/

/-- A match is due if it is a wrapped `if` condition outside the regions of suppression. -/
lemma mem_dueMatches {m : Match} :
    m ∈ dueMatches file ↔
      m ∈ Pattern.correctable.matches (fun o => Token.kindAt (tokens file.contents) o)
          file.contents ∧ m.isFalsePositive = false ∧
        Command.isEnabled (Command.regions file (tokens file.contents)) file
          controlStatement.identifier m.start = true := by
  rw [dueMatches_eq_filter, List.mem_filter, Pattern.mem_wrapped, and_assoc]

/-- Every copy of the rule reports the same violations. -/
lemma lintFile_eq {settings : Settings} {severity : Severity} (copies : Nat) (file : SourceFile)
    (hseverity : settings.severityFor controlStatement.identifier = .ok severity) :
    lintFile settings copies file = .ok (List.replicate (enabledCopies settings copies)
      (unsuppressed file severity)).flatten := by
  rw [lintFile]
  cases enabledCopies settings copies with
  | zero => rfl
  | succ n => simp only [hseverity, Except.map]

/-- The corrections of a file that can be stored are located at the violations at an `if` that a
lint reports, the last of them first. The text that is left has these conditions unwrapped, none of
which is a false positive or suppressed. It is stored if there is such a violation, and otherwise
nothing changes. -/
theorem corrections_at_if_violations {settings : Settings} {w : Workspace} {path : String}
    {severity : Severity} (file : SourceFile)
    (hrule : settings.isRuleEnabled controlStatement.identifier = true)
    (hseverity : settings.severityFor controlStatement.identifier = .ok severity)
    (hstore : w.refusal? path = none) :
    let ts := tokens file.contents
    let regions := Command.regions file ts
    let start : FileProgress := ⟨w, file, [], []⟩
    ∃ violations p ms, lintFile settings 1 file = .ok violations ∧
      correctPasses path (enabledCopies settings 1) start = (p, .ok ()) ∧
      p.corrections.map Correction.location =
        ((violations.filter fun v => v.IsAtIf file.contents).map Violation.location).reverse ∧
      (p.corrections.map Correction.location =
          ms.reverse.map fun m : Match => file.location m.start) ∧
      p.file.contents = unwrapAll ms file.contents ∧
      (∀ m, m ∈ ms ↔ m ∈ Pattern.correctable.matches (fun o => Token.kindAt ts o) file.contents ∧
        m.isFalsePositive = false ∧
        Command.isEnabled regions file controlStatement.identifier m.start = true) ∧
      ((∃ v ∈ violations, v.IsAtIf file.contents) →
        p.events = [.wrote p.file.contents.length path] ∧
          p.workspace = w.store path p.file.contents) ∧
      ((∀ v ∈ violations, ¬ v.IsAtIf file.contents) → p = start) := by
  intro ts regions start
  have hcopies : enabledCopies settings 1 = 1 := by rw [enabledCopies, if_pos hrule]
  have hlint : lintFile settings 1 file = .ok (unsuppressed file severity) := by
    rw [lintFile_eq 1 file hseverity, hcopies, List.replicate_one, List.flatten_singleton]
  by_cases hdue : dueMatches file = []
  · have hstep : correctStep path start = .ok start := correctStep_of_eq_nil path hdue
    refine ⟨_, start, dueMatches file, hlint, ?_, ?_, ?_, ?_,
      fun m => mem_dueMatches, ?_, fun _ => rfl⟩
    · simp only [hcopies, correctPasses, hstep]
    · rw [locations_isAtIf, hdue]
      rfl
    · rw [hdue]
      rfl
    · rw [hdue]
      rfl
    · rintro ⟨v, hv, hat⟩
      exact absurd hat ((forall_not_isAtIf_iff file severity).mpr hdue v hv)
  · have hstep : correctStep path start = .ok (start.unwrapped path) :=
      correctStep_of_ne_nil hstore hdue
    have hcorrections : (start.unwrapped path).corrections.map Correction.location =
        (dueMatches file).reverse.map fun m => file.location m.start := by
      simp only [FileProgress.unwrapped, start, List.nil_append, List.map_map]
      rfl
    refine ⟨_, start.unwrapped path, dueMatches file, hlint, ?_, ?_,
      hcorrections, rfl, fun m => mem_dueMatches, fun _ => ⟨rfl, rfl⟩, ?_⟩
    · simp only [hcopies, correctPasses, hstep]
    · rw [locations_isAtIf, hcorrections, List.map_reverse]
    · intro h
      exact absurd ((forall_not_isAtIf_iff file severity).mp h) hdue

/-- The second condition is suppressed, and the third is no `if`. The file is stored with the first
one unwrapped. -/
theorem corrections_at_if_violations_of_command :
    let file := SourceFile.ofContents
      "if (a) \x7b\nif (b) \x7b // swiftlint:disable:this control_statement\nwhile (c) \x7b".toList
      (some "a.swift")
    let settings : Settings := ⟨[]⟩
    let w : Workspace := ⟨(⟨[(["a.swift"], encode file.contents)], []⟩ : FileTree), [], []⟩
    settings.isRuleEnabled controlStatement.identifier = true ∧
      settings.severityFor controlStatement.identifier = .ok .warning ∧
      w.refusal? "a.swift" = none ∧
      ((lintFile settings 1 file).toOption.map fun violations =>
        violations.map fun v => v.location.offset) = some [0, 62] ∧
      ∃ p, correctPasses "a.swift" 1 ⟨w, file, [], []⟩ = (p, .ok ()) ∧
        p.corrections.map Correction.location = [⟨some "a.swift", 0, 1, 1⟩] ∧
        p.workspace.tree.bytesAt? ["a.swift"] = some (encode (("if a \x7b\nif (b) \x7b " ++
          "// swiftlint:disable:this control_statement\nwhile (c) \x7b").toList)) := by
  intro file settings w
  have hlint : ((lintFile settings 1 file).toOption.map fun violations =>
      (violations.filter fun v => v.IsAtIf file.contents).map Violation.location) =
        some [⟨some "a.swift", 0, 1, 1⟩] := by decide +kernel
  have hbytes : (correctPasses "a.swift" 1 ⟨w, file, [], []⟩).1.workspace.tree.bytesAt? ["a.swift"] =
      some (encode (("if a \x7b\nif (b) \x7b " ++
        "// swiftlint:disable:this control_statement\nwhile (c) \x7b").toList)) := by decide +kernel
  have hrule : settings.isRuleEnabled controlStatement.identifier = true := rfl
  have hseverity : settings.severityFor controlStatement.identifier = .ok .warning := rfl
  have hstore : w.refusal? "a.swift" = none := rfl
  obtain ⟨violations, p, ms, hviolations, hpasses, hlocations, -⟩ :=
    corrections_at_if_violations file hrule hseverity hstore
  rw [hviolations] at hlint
  have hcopies : enabledCopies settings 1 = 1 := rfl
  rw [hcopies] at hpasses
  rw [hpasses] at hbytes
  refine ⟨hrule, hseverity, hstore, by decide +kernel, p, hpasses, ?_, hbytes⟩
  have hfound : (violations.filter fun v => v.IsAtIf file.contents).map Violation.location =
      [⟨some "a.swift", 0, 1, 1⟩] := Option.some.inj hlint
  rw [hlocations, hfound]
  rfl

end ParenLint
