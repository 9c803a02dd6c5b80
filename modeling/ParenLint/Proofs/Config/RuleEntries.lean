import Mathlib.Tactic.Lemma
import Mathlib.Tactic.SplitIfs
import ParenLint.Run.Lint

/-!
# The entries of rules

When settings are loaded, the entry of a rule is checked if it is a text or a mapping, and then it
gives a severity. An entry of any other form is only noted as ignored. It is looked up all the same
when a file is linted, and gives no severity there.
-/

namespace ParenLint

namespace Config

variable {es : Entries} {entry key : Value} {name : String} {settings : Settings}

lemma Value.sameKey_string_iff : key.sameKey (.string name) = true ↔ key = .string name := by
  cases key <;> simp [Value.sameKey, Value.asInt?]

lemma Entries.mem_of_get? (h : Entries.get? es name = some entry) :
    (Value.string name, entry) ∈ es := by
  obtain ⟨⟨key, value⟩, hfind, rfl⟩ := Option.map_eq_some_iff.mp h
  have hkey : key.sameKey (.string name) = true := by simpa using List.find?_some hfind
  obtain rfl := Value.sameKey_string_iff.mp hkey
  exact List.mem_of_find?_eq_some hfind

/-- Only a text or a mapping can give a severity. -/
lemma severityOf_of_not_isRuleEntry (h : isRuleEntry entry = false) :
    severityOf entry = .error (.invalidSeverity entry) := by
  cases entry with
  | string s => cases h
  | mapping entries => cases h
  | _ => rfl

/-- The check passes exactly if each entry that it looks at gives a severity. -/
lemma checkRuleEntries_eq_ok_iff :
    (checkRuleEntries es).2 = .ok () ↔
      ∀ e ∈ es, isKnownKey e.1 = false → isRuleEntry e.2 = true →
        ∃ severity, severityOf e.2 = .ok severity := by
  induction es with
  | nil => simp [checkRuleEntries]
  | cons e rest ih =>
    obtain ⟨key, value⟩ := e
    rw [checkRuleEntries, List.forall_mem_cons, ← ih]
    split_ifs with hknown hentry
    · simp [hknown]
    · cases severityOf value <;> simp [hknown, hentry]
    · simp [hentry]

/-- The ignored keys are those of the entries that are not looked at. -/
lemma checkRuleEntries_fst (h : (checkRuleEntries es).2 = .ok ()) :
    (checkRuleEntries es).1 =
      (es.filter fun e => !isKnownKey e.1 && !isRuleEntry e.2).map (·.1) := by
  induction es with
  | nil => rfl
  | cons e rest ih =>
    obtain ⟨key, value⟩ := e
    rw [checkRuleEntries] at h ⊢
    split_ifs at h ⊢ with hknown hentry
    · simp [hknown, ih h]
    · cases hseverity : severityOf value with
      | error e => simp [hseverity] at h
      | ok severity =>
        simp only [hseverity] at h
        simp [hentry, ih h]
    · simp [hknown, hentry, ih h]

/-- Settings that are loaded are the mapping, whose entries have passed the check. -/
lemma of_ofEntries_eq_ok (h : (Settings.ofEntries es).2 = .ok settings) :
    settings = ⟨es⟩ ∧ (checkRuleEntries es).2 = .ok () ∧
      (Settings.ofEntries es).1 = (checkRuleEntries es).1 := by
  rw [Settings.ofEntries] at h ⊢
  split at h
  · cases h
  · cases h
  · cases hcheck : (checkRuleEntries es).2 with
    | error e => simp [hcheck, Except.map] at h
    | ok done =>
      simp only [hcheck, Except.map, Except.ok.injEq] at h
      exact ⟨h.symm, rfl, rfl⟩

/-- In settings that were loaded, the severity of a rule fails exactly on an entry that was not
looked at. -/
lemma severityFor_eq_error_iff {e : SettingsError}
    (hload : (Settings.ofEntries es).2 = .ok settings)
    (hname : isKnownKey (.string name) = false) :
    settings.severityFor name = .error e ↔
      ∃ entry, Entries.get? es name = some entry ∧ isRuleEntry entry = false ∧
        e = .invalidSeverity entry := by
  obtain ⟨rfl, hcheck, -⟩ := of_ofEntries_eq_ok hload
  cases hget : Entries.get? es name with
  | none => simp [Settings.severityFor, hget]
  | some entry =>
    have hfor : Settings.severityFor ⟨es⟩ name = severityOf entry := by
      simp [Settings.severityFor, hget]
    rw [hfor]
    cases hentry : isRuleEntry entry with
    | true =>
      obtain ⟨severity, hseverity⟩ := checkRuleEntries_eq_ok_iff.mp hcheck _
        (Entries.mem_of_get? hget) hname hentry
      simp [hseverity, hentry]
    | false =>
      rw [severityOf_of_not_isRuleEntry hentry, Except.error.injEq]
      constructor
      · rintro rfl
        exact ⟨entry, rfl, hentry, rfl⟩
      · rintro ⟨entry', heq, -, rfl⟩
        rw [Option.some.inj heq]

/-- A key whose entry was not looked at is noted as ignored. -/
lemma mem_ignored (hload : (Settings.ofEntries es).2 = .ok settings)
    (hname : isKnownKey (.string name) = false) (hget : Entries.get? es name = some entry)
    (hentry : isRuleEntry entry = false) : .string name ∈ (Settings.ofEntries es).1 := by
  obtain ⟨-, hcheck, hignored⟩ := of_ofEntries_eq_ok hload
  rw [hignored, checkRuleEntries_fst hcheck]
  apply List.mem_map.mpr
  exact ⟨_, List.mem_filter.mpr ⟨Entries.mem_of_get? hget, by simp [hname, hentry]⟩, rfl⟩

end Config

open Config

/-! ### Lint runs -/

section Lint

variable {settings : Settings} {copies : Nat} {w : Workspace} {e : SettingsError}
  {path : String} {paths : List String}

lemma lintFile_eq_error_iff (file : SourceFile) :
    lintFile settings copies file = .error e ↔
      enabledCopies settings copies ≠ 0 ∧
        settings.severityFor controlStatement.identifier = .error e := by
  rw [lintFile]
  cases enabledCopies settings copies with
  | zero => simp
  | succ n => cases settings.severityFor controlStatement.identifier <;> simp [Except.map]

/-- Settings end a run over files only at the first file, once this has been read. -/
lemma lintPaths_eq_error_settings_iff :
    (lintPaths settings copies w paths).2 = .error (.settings e) ↔
      (∃ path rest file, paths = path :: rest ∧ w.readSource path = .ok file) ∧
        enabledCopies settings copies ≠ 0 ∧
          settings.severityFor controlStatement.identifier = .error e := by
  induction paths with
  | nil => simp [lintPaths]
  | cons path rest ih =>
    rw [lintPaths, lintPath]
    cases hread : w.readSource path with
    | error failure => simp [hread]
    | ok file =>
      rw [← lintFile_eq_error_iff file] at ih ⊢
      cases hlint : lintFile settings copies file with
      | error failure => simp [hread, hlint]
      | ok violations => cases hrest : (lintPaths settings copies w rest).2 <;> simp_all [Except.map]

end Lint

/-- Settings that were loaded give a severity for a rule exactly if its entry is a text or a mapping,
or missing. An entry of another form is noted as ignored and fails when it is looked up, which ends
a lint run at the first file it reads. -/
theorem loaded_severity_iff_checked {es : Entries} {settings : Settings}
    (hload : (Settings.ofEntries es).2 = .ok settings) :
    (∀ rule, isKnownKey (.string rule) = false →
      ((∃ severity, settings.severityFor rule = .ok severity) ↔
        ∀ entry, Entries.get? es rule = some entry → isRuleEntry entry = true) ∧
      ∀ entry, Entries.get? es rule = some entry → isRuleEntry entry = false →
        settings.severityFor rule = .error (.invalidSeverity entry) ∧
          .string rule ∈ (Settings.ofEntries es).1) ∧
    ∀ copies w targets e, (lint settings copies w targets).2 = .error (.settings e) ↔
      (∃ path rest file, w.selectedFiles settings targets = path :: rest ∧
        w.readSource path = .ok file) ∧
      enabledCopies settings copies ≠ 0 ∧
      ∃ entry, Entries.get? es controlStatement.identifier = some entry ∧
        isRuleEntry entry = false ∧ e = .invalidSeverity entry := by
  refine ⟨fun rule hrule => ⟨?_, ?_⟩, ?_⟩
  · constructor
    · rintro ⟨severity, hseverity⟩ entry hget
      cases hentry : isRuleEntry entry with
      | true => rfl
      | false =>
        have herror := (severityFor_eq_error_iff hload hrule).mpr ⟨entry, hget, hentry, rfl⟩
        simp [hseverity] at herror
    · intro hchecked
      cases hseverity : settings.severityFor rule with
      | ok severity => exact ⟨severity, rfl⟩
      | error e =>
        obtain ⟨entry, hget, hentry, -⟩ := (severityFor_eq_error_iff hload hrule).mp hseverity
        simp [hchecked entry hget] at hentry
  · intro entry hget hentry
    exact ⟨(severityFor_eq_error_iff hload hrule).mpr ⟨entry, hget, hentry, rfl⟩,
      mem_ignored hload hrule hget hentry⟩
  · intro copies w targets e
    rw [← severityFor_eq_error_iff hload (by decide), ← lintPaths_eq_error_settings_iff]
    cases hpaths : (lintPaths settings copies w (w.selectedFiles settings targets)).2 <;>
      simp [lint, hpaths, Except.map]

/-- A number is ignored as the entry of the rule, and then ends the lint of an empty file. -/
theorem ignored_entry_ends_lint :
    let es : Entries := [(.string "control_statement", .int 5)]
    let settings : Settings := ⟨es⟩
    let w : Workspace := ⟨(⟨[(["a.swift"], [])], []⟩ : FileTree), [], []⟩
    (Settings.ofEntries es).2 = .ok settings ∧
      isKnownKey (.string "control_statement") = false ∧
      .string "control_statement" ∈ (Settings.ofEntries es).1 ∧
      ¬ (∃ severity, settings.severityFor "control_statement" = .ok severity) ∧
      (lint settings 1 w ["a.swift"]).2 = .error (.settings (.invalidSeverity (.int 5))) := by
  intro es settings w
  have hload : (Settings.ofEntries es).2 = .ok settings := rfl
  have hget : Entries.get? es "control_statement" = some (.int 5) := rfl
  obtain ⟨hseverity, hlint⟩ := loaded_severity_iff_checked hload
  obtain ⟨hiff, hfails⟩ := hseverity "control_statement" (by decide)
  refine ⟨hload, by decide, (hfails _ hget rfl).2, ?_, ?_⟩
  · intro hok
    exact absurd (hiff.mp hok _ hget) (by decide)
  · have hfiles : w.selectedFiles settings ["a.swift"] = ["a.swift"] := by decide +kernel
    exact (hlint 1 w ["a.swift"] _).mpr
      ⟨⟨"a.swift", [], .ofContents [] (some "a.swift"), hfiles, rfl⟩, by decide +kernel,
        .int 5, hget, rfl, rfl⟩

end ParenLint
