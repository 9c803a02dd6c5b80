import ParenLint.Proofs.Run.FirstFailure

/-!
# Runs and the order of their targets

The files of a correcting run are corrected each on its own, so no order of the targets is
distinguished: the same bytes are left, and the same is reported of each file. A lint run goes
through its targets in order, so that it can be cut between any two of them.
-/

namespace ParenLint

open ParenLint.Config ParenLint.Path ParenLint.Text

variable {settings : Settings} {copies n : Nat} {w w₁ w₂ : Workspace} {path : String}
  {place place' : Place} {raw raw' : List Char} {files files' : List OpenedFile}
  {paths paths' targets targets' : List String}

/-! ### Selected files in another order -/

lemma Workspace.selectedFiles_perm (h : targets.Perm targets') :
    (w.selectedFiles settings targets).Perm (w.selectedFiles settings targets') :=
  (h.flatMap_right _).filter _

lemma Workspace.LeadsApart.perm (hapart : w.LeadsApart paths) (h : paths.Perm paths') :
    w.LeadsApart paths' := by
  refine h.pairwise hapart ?_
  intro path path' hne place hplace' hplace
  exact hne place hplace hplace'

/-- A path opens at most one file. -/
lemma OpensText.unique (h : OpensText w path place raw) (h' : OpensText w path place' raw') :
    place = place' ∧ raw = raw' := by
  obtain ⟨hplace, hbytes⟩ := Prod.mk.inj (Except.ok.inj (h.open_eq.symm.trans h'.open_eq))
  exact ⟨hplace, encode_injective hbytes⟩

namespace Corrects

lemma nodup_path (h : Corrects n w w₁ files) (hapart : w.LeadsApart (files.map OpenedFile.path)) :
    (files.map OpenedFile.path).Nodup := by
  refine List.pairwise_map.mpr ((List.pairwise_map.mp hapart).imp_of_mem ?_)
  intro f g hf hg hne heq
  have hopen := (h.opens f hf).locate_eq
  exact hne f.place hopen (heq ▸ hopen)

/-- Of the files that one run corrects, another one corrects those that it opens. -/
lemma mem_of_path_mem (h : Corrects n w w₁ files) (h' : Corrects n w w₂ files') {f : OpenedFile}
    (hf : f ∈ files) (hpath : f.path ∈ files'.map OpenedFile.path) : f ∈ files' := by
  obtain ⟨g, hg, heq⟩ := List.mem_map.mp hpath
  obtain ⟨hplace, hraw⟩ := (h'.opens g hg).unique (heq ▸ h.opens f hf)
  have hsame : g = f := by
    rw [OpenedFile.mk.injEq]
    exact ⟨heq, hplace, hraw⟩
  exact hsame ▸ hg

/-- Runs over the same paths correct the same files. -/
lemma perm (h : Corrects n w w₁ files) (h' : Corrects n w w₂ files')
    (hapart : w.LeadsApart (files.map OpenedFile.path))
    (hpaths : (files.map OpenedFile.path).Perm (files'.map OpenedFile.path)) :
    files.Perm files' := by
  have hnodup : files.Nodup := (h.nodup_path hapart).of_map
  have hnodup' : files'.Nodup := (h'.nodup_path (hapart.perm hpaths)).of_map
  refine (List.perm_ext_iff_of_nodup hnodup hnodup').mpr fun f => ⟨fun hf => ?_, fun hf => ?_⟩
  · exact h.mem_of_path_mem h' hf (hpaths.subset (List.mem_map_of_mem hf))
  · exact h'.mem_of_path_mem h hf (hpaths.symm.subset (List.mem_map_of_mem hf))

/-- What is left does not depend on the order in which files are corrected. -/
lemma bytesAt?_eq (h : Corrects n w w₁ files) (h' : Corrects n w w₂ files')
    (hfiles : files.Perm files') (place : Place) :
    w₁.tree.bytesAt? place = w₂.tree.bytesAt? place := by
  by_cases hselected : ∃ f ∈ files, f.place = place
  · obtain ⟨f, hf, rfl⟩ := hselected
    rw [h.holds f hf, h'.holds f (hfiles.subset hf)]
  · have hnone : ∀ f ∈ files, f.place ≠ place := fun f hf heq => hselected ⟨f, hf, heq⟩
    rw [h.others place hnone,
      h'.others place fun f hf => hnone f (hfiles.symm.subset hf)]

end Corrects

/-! ### What is reported of a file -/

/-- Of files with different paths the same have a given path, whatever their order is. -/
lemma filter_path_eq (hpaths : (files.map OpenedFile.path).Nodup) (h : files.Perm files')
    (path : String) :
    files.filter (fun f => f.path = path) = files'.filter fun f => f.path = path := by
  by_cases hmem : ∃ f ∈ files, f.path = path
  · obtain ⟨f, hf, rfl⟩ := hmem
    have hpaths' : (files'.map OpenedFile.path).Nodup := (h.map _).nodup_iff.mp hpaths
    rw [OpenedFile.filter_path_eq_singleton hf hpaths,
      OpenedFile.filter_path_eq_singleton (h.subset hf) hpaths']
  · have hnone : ∀ f ∈ files, ¬ decide (f.path = path) = true :=
      fun f hf heq => hmem ⟨f, hf, of_decide_eq_true heq⟩
    rw [List.filter_eq_nil_iff.mpr hnone,
      List.filter_eq_nil_iff.mpr fun f hf => hnone f (h.symm.subset hf)]

/-! ### Lint runs over parts -/

lemma lintPaths_cons (settings : Settings) (copies : Nat) (w : Workspace) (path : String)
    (paths : List String) :
    (lintPaths settings copies w (path :: paths)).2 = do
      let vs ← (lintPath settings copies w path).2
      let vs' ← (lintPaths settings copies w paths).2
      return vs ++ vs' := by
  rw [lintPaths]
  obtain ⟨events, result⟩ := lintPath settings copies w path
  obtain ⟨more, rest⟩ := lintPaths settings copies w paths
  cases result with
  | error e => rfl
  | ok vs => cases rest <;> rfl

/-- A lint run over files can be cut anywhere. If the first part fails, so does the whole. -/
lemma lintPaths_append (settings : Settings) (copies : Nat) (w : Workspace)
    (paths paths' : List String) :
    (lintPaths settings copies w (paths ++ paths')).2 = do
      let vs ← (lintPaths settings copies w paths).2
      let vs' ← (lintPaths settings copies w paths').2
      return vs ++ vs' := by
  induction paths with
  | nil => exact (bind_pure _).symm
  | cons path paths ih =>
    rw [List.cons_append, lintPaths_cons, lintPaths_cons, ih]
    simp only [bind_assoc, pure_bind, List.append_assoc]

lemma Workspace.selectedFiles_append (w : Workspace) (settings : Settings)
    (targets targets' : List String) :
    w.selectedFiles settings (targets ++ targets') =
      w.selectedFiles settings targets ++ w.selectedFiles settings targets' := by
  rw [selectedFiles, List.flatMap_append, select, List.filter_append]
  rfl

/-- A correcting run in which no file fails reports of all selected files. -/
lemma exists_autocorrect_eq (hapart : w.LeadsApart (w.selectedFiles settings targets))
    (hnone : ∀ path ∈ w.selectedFiles settings targets,
      w.failure? (enabledCopies settings copies) path = none) :
    let n := enabledCopies settings copies
    ∃ files, files.map OpenedFile.path = w.selectedFiles settings targets ∧
      Corrects n w (autocorrect settings copies w targets).workspace files ∧
      (autocorrect settings copies w targets).outcome =
        .ok ⟨files.flatMap fun f => f.source.correctionsBy n, files.length,
          (files.filter fun f => !(f.source.correctionsBy n).isEmpty).length⟩ := by
  intro n
  obtain ⟨files, hfiles, hcorrects, hresult⟩ := correctPaths_of_forall_none hapart hnone
  have hscanned : (w.selectedFiles settings targets).length = files.length := by
    rw [← hfiles, List.length_map]
  refine ⟨files, hfiles, hcorrects, ?_⟩
  simp only [autocorrect, hresult, Except.map, hscanned, List.flatMap_def, List.filter_map,
    List.length_map]
  rfl

/-! ### The order of targets -/

/-- Where no selected file is one that another path leads to and no correction fails, a correcting
run over the same targets in another order leaves the same bytes in every file, reads and rewrites
as many files, and reports the same corrections of each. The violations of a lint run over targets
are those of a run over the first of them and then those of a run over the others, and it fails
where one of these does. -/
theorem runs_ignore_order_of_targets {settings : Settings} {copies : Nat} {w : Workspace}
    {targets targets' : List String} (horder : targets.Perm targets')
    (hapart : w.LeadsApart (w.selectedFiles settings targets))
    (hnone : ∀ path ∈ w.selectedFiles settings targets,
      w.failure? (enabledCopies settings copies) path = none) :
    (∃ summary summary',
      (autocorrect settings copies w targets).outcome = .ok summary ∧
      (autocorrect settings copies w targets').outcome = .ok summary' ∧
      (∀ place, (autocorrect settings copies w targets).workspace.tree.bytesAt? place =
        (autocorrect settings copies w targets').workspace.tree.bytesAt? place) ∧
      summary.scanned = summary'.scanned ∧ summary.corrected = summary'.corrected ∧
      ∀ path, summary.corrections.filter (fun c => c.location.file = some path) =
        summary'.corrections.filter fun c => c.location.file = some path) ∧
    ∀ first second, (lint settings copies w (first ++ second)).2.map LintSummary.violations = do
      let found ← (lint settings copies w first).2
      let found' ← (lint settings copies w second).2
      return found.violations ++ found'.violations := by
  have hselected : (w.selectedFiles settings targets).Perm (w.selectedFiles settings targets') :=
    Workspace.selectedFiles_perm horder
  constructor
  · obtain ⟨files, hfiles, hcorrects, hrun⟩ := exists_autocorrect_eq hapart hnone
    obtain ⟨files', hfiles', hcorrects', hrun'⟩ := exists_autocorrect_eq (hapart.perm hselected)
      fun path hpath => hnone path (hselected.symm.subset hpath)
    rw [← hfiles, ← hfiles'] at hselected
    rw [← hfiles] at hapart
    have hsame := hcorrects.perm hcorrects' hapart hselected
    have hnamed := OpenedFile.filter_flatMap_report
      (fun f => f.source.correctionsBy (enabledCopies settings copies))
      fun _ _ hc => SourceFile.file_of_mem_correctionsBy hc
    refine ⟨_, _, hrun, hrun', hcorrects.bytesAt?_eq hcorrects' hsame, hsame.length_eq,
      (hsame.filter _).length_eq, fun path => ?_⟩
    simp only [hnamed]
    rw [filter_path_eq (hcorrects.nodup_path hapart) hsame]
  · intro first second
    simp only [lint, Workspace.selectedFiles_append, lintPaths_append]
    cases (lintPaths settings copies w (w.selectedFiles settings first)).2 with
    | error e => rfl
    | ok vs => cases (lintPaths settings copies w (w.selectedFiles settings second)).2 <;> rfl

/-- Two files, of which one is rewritten twice and has a carriage return, in both orders. -/
theorem runs_ignore_order_of_two_files :
    let settings : Settings := ⟨[]⟩
    let w : Workspace :=
      { tree := ⟨[(["a.swift"], encode "if ((a)) \x7b\r\n".toList),
          (["b.swift"], encode "if (b) \x7b\n".toList)], []⟩
        cwd := []
        refused := [] }
    ["a.swift", "b.swift"].Perm ["b.swift", "a.swift"] ∧
      w.LeadsApart (w.selectedFiles settings ["a.swift", "b.swift"]) ∧
      (∀ path ∈ w.selectedFiles settings ["a.swift", "b.swift"],
        w.failure? (enabledCopies settings 2) path = none) ∧
      ∃ summary summary',
        (autocorrect settings 2 w ["a.swift", "b.swift"]).outcome = .ok summary ∧
        (autocorrect settings 2 w ["b.swift", "a.swift"]).outcome = .ok summary' ∧
        summary.corrections.map (·.location.file) =
          [some "a.swift", some "a.swift", some "b.swift"] ∧
        summary'.corrections.map (·.location.file) =
          [some "b.swift", some "a.swift", some "a.swift"] ∧
        summary.corrected = summary'.corrected ∧
        ∀ path, summary.corrections.filter (fun c => c.location.file = some path) =
          summary'.corrections.filter fun c => c.location.file = some path := by
  intro settings w
  have horder : ["a.swift", "b.swift"].Perm ["b.swift", "a.swift"] := .swap _ _ _
  have hapart : w.LeadsApart (w.selectedFiles settings ["a.swift", "b.swift"]) := by
    decide +kernel
  have hnone : ∀ path ∈ w.selectedFiles settings ["a.swift", "b.swift"],
      w.failure? (enabledCopies settings 2) path = none := by
    simp only [← Option.isNone_iff_eq_none]
    decide +kernel
  obtain ⟨⟨summary, summary', hrun, hrun', -, -, hcorrected, hcorrections⟩, -⟩ :=
    @runs_ignore_order_of_targets settings 2 w _ _ horder hapart hnone
  refine ⟨horder, hapart, hnone, summary, summary', hrun, hrun', ?_, ?_, hcorrected, hcorrections⟩
  · have hnamed : (autocorrect settings 2 w ["a.swift", "b.swift"]).outcome.toOption.map
        (fun summary => summary.corrections.map (·.location.file)) =
          some [some "a.swift", some "a.swift", some "b.swift"] := by decide +kernel
    simpa [hrun, Except.toOption] using hnamed
  · have hnamed : (autocorrect settings 2 w ["b.swift", "a.swift"]).outcome.toOption.map
        (fun summary => summary.corrections.map (·.location.file)) =
          some [some "b.swift", some "a.swift", some "a.swift"] := by decide +kernel
    simpa [hrun', Except.toOption] using hnamed

end ParenLint
