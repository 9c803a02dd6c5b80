import ParenLint.Proofs.Run.KeptBytes

/-!
# Runs that end early

A correcting run goes on to the first file whose correction fails, and ends there with the error of
this file. Up to then every file holds what the copies of the rule leave of it. The file itself keeps
its bytes exactly if it was not opened to be written, and all others hold theirs as before. Whether
the correction of a file fails is not changed by those before it.
-/

namespace ParenLint

open ParenLint.Path ParenLint.Text

/-- No two of the paths lead to one place. -/
def Workspace.LeadsApart (w : Workspace) (paths : List String) : Prop :=
  paths.Pairwise fun path path' => ∀ place, w.tree.locate w.cwd (parse path) = .ok place →
    w.tree.locate w.cwd (parse path') ≠ .ok place

lemma Workspace.leadsApart_iff_nodup {w : Workspace} {paths : List String} :
    w.LeadsApart paths ↔
      (paths.filterMap fun path => (w.tree.locate w.cwd (parse path)).toOption).Nodup := by
  rw [LeadsApart, List.Nodup, List.pairwise_filterMap]
  apply List.Pairwise.iff
  intro path path'
  cases w.tree.locate w.cwd (parse path) <;> cases w.tree.locate w.cwd (parse path') <;>
    simp [Except.toOption, eq_comm]

instance (w : Workspace) (paths : List String) : Decidable (w.LeadsApart paths) :=
  decidable_of_iff _ Workspace.leadsApart_iff_nodup.symm

/-- The files hold what `n` passes leave of them, and every other file its bytes as before. -/
structure Corrects (n : Nat) (w w' : Workspace) (files : List OpenedFile) : Prop where
  opens : ∀ f ∈ files, OpensText w f.path f.place f.raw
  holds : ∀ f ∈ files, w'.tree.bytesAt? f.place = some (encode (f.left n))
  others : ∀ place, (∀ f ∈ files, f.place ≠ place) →
    w'.tree.bytesAt? place = w.tree.bytesAt? place

variable {settings : Config.Settings} {copies n : Nat} {w w₁ w' : Workspace} {f : OpenedFile}
  {files : List OpenedFile} {path : String} {before rest paths : List String} {place : Place}
  {bytes : List UInt8} {e : RunError}

lemma Workspace.AgreesOn.failure?_eq (h : w.AgreesOn w₁ paths) (hpath : path ∈ paths) (n : Nat) :
    w₁.failure? n path = w.failure? n path := by
  rw [failure?, failure?, h.readSource_eq path hpath, h.refusal?_eq]

lemma Workspace.AgreesOn.leadsApart {paths' : List String} (h : w.AgreesOn w₁ paths')
    (hapart : w.LeadsApart paths) : w₁.LeadsApart paths := by
  simpa only [LeadsApart, h.locate_eq] using hapart

namespace Corrects

lemma nil (n : Nat) (w : Workspace) : Corrects n w w [] := by
  refine ⟨?_, ?_, fun _ _ => rfl⟩ <;> simp

/-- A file at a place of its own goes in front. -/
lemma cons (hopen : OpensText w f.path f.place f.raw)
    (hdiffers : w.DiffersAt w₁ f.place (encode (f.left n)))
    (hfresh : ∀ g ∈ files, g.place ≠ f.place) (h : Corrects n w₁ w' files) :
    Corrects n w w' (f :: files) := by
  refine ⟨?_, ?_, ?_⟩
  · intro g hg
    rcases List.mem_cons.mp hg with rfl | hg
    · exact hopen
    · exact (hdiffers.opensText_iff (hfresh g hg)).mp (h.opens g hg)
  · intro g hg
    rcases List.mem_cons.mp hg with rfl | hg
    · rw [h.others g.place hfresh, hdiffers.bytesAt?_eq, if_pos rfl]
    · exact h.holds g hg
  · intro place hplace
    obtain ⟨hne, hplace⟩ := List.forall_mem_cons.mp hplace
    rw [h.others place hplace, hdiffers.bytesAt?_eq, if_neg hne.symm]

end Corrects

/-- Files whose correction does not fail are corrected one after the other, with no effect on how the
others are read and stored. -/
lemma exists_corrects_append (hapart : w.LeadsApart (before ++ rest))
    (hnone : ∀ path ∈ before, w.failure? (enabledCopies settings copies) path = none) :
    ∃ w₁ files, files.map OpenedFile.path = before ∧
      Corrects (enabledCopies settings copies) w w₁ files ∧ w.AgreesOn w₁ rest ∧
      (correctPaths settings copies w (before ++ rest)).2.1 =
        (correctPaths settings copies w₁ rest).2.1 ∧
      (correctPaths settings copies w (before ++ rest)).2.2 =
        (correctPaths settings copies w₁ rest).2.2.map
          (files.map (fun f => f.source.correctionsBy (enabledCopies settings copies)) ++ ·) := by
  induction before generalizing w with
  | nil =>
    refine ⟨w, [], rfl, .nil _ w, .refl w rest, rfl, ?_⟩
    simp only [List.nil_append, List.map_nil]
    cases (correctPaths settings copies w rest).2.2 <;> rfl
  | cons path before ih =>
    obtain ⟨hpath, hbefore⟩ := List.forall_mem_cons.mp hnone
    obtain ⟨hfirst, hothers⟩ := List.pairwise_cons.mp hapart
    obtain ⟨f, rfl, hopen, houtcome, hdiffers⟩ := exists_correctPath_eq hpath
    have hne : ∀ path ∈ before ++ rest, w.tree.locate w.cwd (parse path) ≠ .ok f.place :=
      fun path hmem => hfirst path hmem f.place hopen.locate_eq
    have hagrees := hdiffers.agreesOn (before ++ rest) hne
    have hrest := hdiffers.agreesOn rest fun path hmem => hne path (List.mem_append_right before hmem)
    obtain ⟨w₁, files, rfl, hcorrects, hagrees₁, hworkspace, hresult⟩ := ih
      (hagrees.leadsApart hothers) fun path hmem =>
        (hagrees.failure?_eq (List.mem_append_left rest hmem) _).trans (hbefore path hmem)
    refine ⟨w₁, f :: files, rfl, ?_, hrest.trans hagrees₁, ?_, ?_⟩
    · refine hcorrects.cons hopen hdiffers ?_
      intro g hg heq
      refine hne g.path (List.mem_append_left rest (List.mem_map_of_mem hg)) ?_
      rw [← hdiffers.locate_eq, (hcorrects.opens g hg).locate_eq, heq]
    · simp only [List.cons_append, correctPaths, houtcome, hworkspace]
    · simp only [List.cons_append, correctPaths, houtcome, hresult]
      cases (correctPaths settings copies w₁ rest).2.2 <;> rfl

/-- A run over paths ends at the first file whose correction fails. -/
theorem correctPaths_of_failure {after : List String}
    (hapart : w.LeadsApart (before ++ path :: after))
    (hnone : ∀ path ∈ before, w.failure? (enabledCopies settings copies) path = none)
    (hfailure : w.failure? (enabledCopies settings copies) path = some e) :
    (correctPaths settings copies w (before ++ path :: after)).2.2 = .error e ∧
      ∃ w₁ files, files.map OpenedFile.path = before ∧
        Corrects (enabledCopies settings copies) w w₁ files ∧ w.AgreesOn w₁ (path :: after) ∧
        w₁.Fails path e (correctPaths settings copies w (before ++ path :: after)).2.1 := by
  obtain ⟨w₁, files, hfiles, hcorrects, hagrees, hworkspace, hresult⟩ :=
    exists_corrects_append hapart hnone
  obtain ⟨houtcome, hfails⟩ :=
    correctPath_of_failure ((hagrees.failure?_eq List.mem_cons_self _).trans hfailure)
  simp only [correctPaths, houtcome] at hworkspace hresult
  rw [hworkspace]
  exact ⟨hresult, w₁, files, hfiles, hcorrects, hagrees, hfails⟩

/-- A run over paths without such a file corrects all of them. -/
theorem correctPaths_of_forall_none (hapart : w.LeadsApart paths)
    (hnone : ∀ path ∈ paths, w.failure? (enabledCopies settings copies) path = none) :
    ∃ files, files.map OpenedFile.path = paths ∧
      Corrects (enabledCopies settings copies) w (correctPaths settings copies w paths).2.1 files ∧
      (correctPaths settings copies w paths).2.2 =
        .ok (files.map fun f => f.source.correctionsBy (enabledCopies settings copies)) := by
  rw [← List.append_nil paths] at hapart
  obtain ⟨w₁, files, hfiles, hcorrects, -, hworkspace, hresult⟩ :=
    exists_corrects_append hapart hnone
  rw [List.append_nil] at hworkspace hresult
  simp only [correctPaths, Except.map, List.append_nil] at hworkspace hresult
  refine ⟨files, hfiles, ?_, hresult⟩
  rw [hworkspace]
  exact hcorrects

lemma failure?_eq_none_of_correctPaths {found : List (List Correction)} (hapart : w.LeadsApart paths)
    (hok : (correctPaths settings copies w paths).2.2 = .ok found) :
    ∀ path ∈ paths, w.failure? (enabledCopies settings copies) path = none := by
  let fails := fun path => (w.failure? (enabledCopies settings copies) path).isSome
  cases hfirst : paths.find? fails with
  | none =>
    intro path hpath
    simpa [fails] using List.find?_eq_none.mp hfirst path hpath
  | some path =>
    obtain ⟨hfails, before, after, rfl, hbefore⟩ := List.find?_eq_some_iff_append.mp hfirst
    obtain ⟨e, hfailure⟩ := Option.isSome_iff_exists.mp hfails
    have hends := (correctPaths_of_failure hapart
      (fun path' hpath' => by simpa [fails] using hbefore path' hpath') hfailure).1
    rw [hends] at hok
    cases hok

/-- A run that comes to its end has corrected all selected files. -/
lemma exists_corrects_of_autocorrect {targets : List String} {summary : CorrectSummary}
    (hapart : w.LeadsApart (w.selectedFiles settings targets))
    (hrun : (autocorrect settings copies w targets).outcome = .ok summary) :
    ∃ files, files.map OpenedFile.path = w.selectedFiles settings targets ∧
      Corrects (enabledCopies settings copies) w (autocorrect settings copies w targets).workspace
        files ∧
      summary.corrections =
        files.flatMap (fun f => f.source.correctionsBy (enabledCopies settings copies)) ∧
      summary.corrected = (files.filter fun f =>
        !(f.source.correctionsBy (enabledCopies settings copies)).isEmpty).length := by
  rw [autocorrect] at hrun ⊢
  cases hfound : (correctPaths settings copies w (w.selectedFiles settings targets)).2.2 with
  | error e => simp [hfound, Except.map] at hrun
  | ok found =>
    obtain ⟨files, hfiles, hcorrects, hresult⟩ := correctPaths_of_forall_none hapart
      (failure?_eq_none_of_correctPaths hapart hfound)
    simp only [hresult, Except.map, Except.ok.injEq] at hrun
    subst hrun
    refine ⟨files, hfiles, hcorrects, List.flatMap_def.symm, ?_⟩
    simp only [List.filter_map, List.length_map, Function.comp_def]

/-- A run ends in the correction of the file at a path with an error. The files before hold what `n`
passes leave of them, and all others but the one that the path leads to hold their bytes as before.
This file keeps its bytes unless writing it breaks off. Then it holds the text that was due, as far
as it was stored. -/
structure EndsIn (n : Nat) (w w' : Workspace) (files : List OpenedFile) (path : String)
    (e : RunError) : Prop where
  opens : ∀ f ∈ files, OpensText w f.path f.place f.raw
  holds : ∀ f ∈ files, w'.tree.bytesAt? f.place = some (encode (f.left n))
  others : ∀ place, (∀ f ∈ files, f.place ≠ place) → w.tree.locate w.cwd (parse path) ≠ .ok place →
    w'.tree.bytesAt? place = w.tree.bytesAt? place
  keeps_iff : ∀ place, w.tree.locate w.cwd (parse path) = .ok place →
    (w'.tree.bytesAt? place = w.tree.bytesAt? place ↔ ¬w.BreaksOffAt path e place)
  breaks : ∀ place stored, w.BreaksOffAt path e place → w.stored? path = some stored →
    ∃ file, w.readSource path = .ok file ∧
      w'.tree.bytesAt? place = some ((encode file.corrected.contents).take stored)

lemma Corrects.endsIn (h : Corrects n w w₁ files) (hagrees : w.AgreesOn w₁ paths)
    (hpath : path ∈ paths) (hfails : w₁.Fails path e w')
    (hfresh : ∀ f ∈ files, w.tree.locate w.cwd (parse path) ≠ .ok f.place) :
    EndsIn n w w' files path e := by
  have hothers : ∀ place, w.tree.locate w.cwd (parse path) ≠ .ok place →
      w'.tree.bytesAt? place = w₁.tree.bytesAt? place := by
    intro place hne
    refine (hfails.lowers place).kept ?_
    rw [hagrees.breaksOffAt_iff]
    exact fun hbreaks => hne hbreaks.1
  refine ⟨h.opens, ?_, ?_, ?_, ?_⟩
  · intro f hf
    rw [hothers f.place (hfresh f hf), h.holds f hf]
  · intro place hplace hne
    rw [hothers place hne, h.others place hplace]
  · intro place hplace
    have hkept := h.others place fun f hf heq => hfresh f hf (heq ▸ hplace)
    rw [← hkept, (hfails.lowers place).bytesAt?_eq_iff, hagrees.breaksOffAt_iff]
  · intro place stored hbreaks hstored
    rw [← hagrees.readSource_eq path hpath]
    exact hfails.bytesAt?_of_breaksOffAt (hagrees.breaksOffAt_iff.mpr hbreaks)
      ((hagrees.stored?_eq path).trans hstored)

/-- A correcting run that ends early has gone through the selected files before the one whose
correction fails. A file holds its bytes as before exactly if no correction made until then names it
and it is not the one in which a write has broken off.

If no two selected files are the same, the run ends with the error of the first of them that cannot
be read, or in which something is due and which cannot be stored. The files before it hold what the
copies of the rule leave of them, and those after it hold their bytes as before, as does every file
that is not selected. Without such a file the run comes to its end and corrects all files. -/
theorem autocorrect_ends_at_first_failure {settings : Config.Settings} {copies : Nat}
    {w : Workspace} {targets : List String} :
    let n := enabledCopies settings copies
    let run := autocorrect settings copies w targets
    (∀ e, run.outcome = .error e → ∃ before path after found,
      w.selectedFiles settings targets = before ++ path :: after ∧
      (correctPaths settings copies w before).2.2 = .ok found ∧
      (correctPaths settings copies w before).2.1.failure? n path = some e ∧
      ∀ place, run.workspace.tree.bytesAt? place = w.tree.bytesAt? place ↔
        (∀ c ∈ found.flatten, ¬c.Names w place) ∧ ¬w.BreaksOffAt path e place) ∧
    (w.LeadsApart (w.selectedFiles settings targets) →
      (∀ before path after e, w.selectedFiles settings targets = before ++ path :: after →
        (∀ path' ∈ before, w.failure? n path' = none) → w.failure? n path = some e →
          run.outcome = .error e ∧
          (∃ files, files.map OpenedFile.path = before ∧ EndsIn n w run.workspace files path e) ∧
          ∀ path' ∈ after, ∀ place, w.tree.locate w.cwd (parse path') = .ok place →
            run.workspace.tree.bytesAt? place = w.tree.bytesAt? place) ∧
      ((∀ path ∈ w.selectedFiles settings targets, w.failure? n path = none) →
        ∃ files summary, files.map OpenedFile.path = w.selectedFiles settings targets ∧
          run.outcome = .ok summary ∧ Corrects n w run.workspace files ∧
          summary.corrections = files.flatMap (fun f => f.source.correctionsBy n) ∧
          summary.scanned = files.length)) := by
  intro n run
  refine ⟨?_, fun hapart => ⟨?_, ?_⟩⟩
  · intro e houtcome
    cases hpaths : (correctPaths settings copies w (w.selectedFiles settings targets)).2.2 with
    | ok found => simp [run, autocorrect, hpaths, Except.map] at houtcome
    | error e' =>
      simp only [run, autocorrect, hpaths, Except.map, Except.error.injEq] at houtcome
      subst houtcome
      exact bytesAt?_correctPaths_eq_iff hpaths
  · intro before path after e hselected hnone hfailure
    rw [hselected] at hapart
    obtain ⟨houtcome, w₁, files, hfiles, hcorrects, hagrees, hfails⟩ :=
      correctPaths_of_failure hapart hnone hfailure
    rw [← hselected] at houtcome hfails
    obtain ⟨-, hrest, hlater⟩ := List.pairwise_append.mp hapart
    -- The files before are at other places than this one and those after it.
    have hfresh : ∀ path' ∈ path :: after, ∀ f ∈ files,
        w.tree.locate w.cwd (parse path') ≠ .ok f.place := by
      intro path' hpath' f hf
      have hmem : f.path ∈ before := hfiles ▸ List.mem_map_of_mem hf
      exact hlater f.path hmem path' hpath' f.place (hcorrects.opens f hf).locate_eq
    have hends : EndsIn n w run.workspace files path e :=
      hcorrects.endsIn hagrees List.mem_cons_self hfails (hfresh path List.mem_cons_self)
    refine ⟨by simp only [run, autocorrect, houtcome, Except.map], ⟨files, hfiles, hends⟩, ?_⟩
    intro path' hpath' place hplace
    refine hends.others place ?_ ?_
    · rintro f hf rfl
      exact hfresh path' (List.mem_cons_of_mem path hpath') f hf hplace
    · intro hsame
      exact (List.pairwise_cons.mp hrest).1 path' hpath' place hsame hplace
  · intro hnone
    obtain ⟨files, hfiles, hcorrects, hresult⟩ := correctPaths_of_forall_none hapart hnone
    let perFile := files.map fun f => f.source.correctionsBy n
    refine ⟨files, ⟨perFile.flatten, files.length, (perFile.filter fun cs => !cs.isEmpty).length⟩,
      hfiles, ?_, hcorrects, List.flatMap_def.symm, rfl⟩
    have hscanned : (w.selectedFiles settings targets).length = files.length := by
      rw [← hfiles, List.length_map]
    simp only [run, autocorrect, hresult, Except.map, hscanned]
    rfl

/-- The disk is full when the second of three files has been emptied. The first has been unwrapped
twice by then, and that the third cannot be read does not come out. -/
theorem autocorrect_empties_file_on_full_disk :
    let settings : Config.Settings := ⟨[]⟩
    let w : Workspace :=
      { tree := ⟨[(["a.swift"], encode "if ((a)) \x7b\r\n".toList),
          (["b.swift"], encode "if (b) \x7b\r\n".toList),
          (["c.swift"], encode "if (c) \x7b\r\n".toList)], []⟩
        unreadable := [(["c.swift"], ⟨13, "Permission denied"⟩)]
        brokenOff := [(["b.swift"], 0)]
        cwd := []
        refused := [("b.swift", ⟨"[Errno 28] No space left on device"⟩)] }
    let e : RunError := .write ⟨"[Errno 28] No space left on device"⟩
    let run := autocorrect settings 2 w ["."]
    w.LeadsApart (w.selectedFiles settings ["."]) ∧
      w.failure? (enabledCopies settings 2) "a.swift" = none ∧
      w.failure? (enabledCopies settings 2) "b.swift" = some e ∧
      w.BreaksOffAt "b.swift" e ["b.swift"] ∧ run.outcome = .error e ∧
      run.workspace.tree.bytesAt? ["a.swift"] = some (encode "if a \x7b\n".toList) ∧
      run.workspace.tree.bytesAt? ["b.swift"] ≠ w.tree.bytesAt? ["b.swift"] ∧
      run.workspace.tree.bytesAt? ["b.swift"] = some [] ∧
      run.workspace.tree.bytesAt? ["c.swift"] = w.tree.bytesAt? ["c.swift"] := by
  intro settings w e run
  have hselected : w.selectedFiles settings ["."] = ["a.swift", "b.swift", "c.swift"] := by
    decide +kernel
  have hapart : w.LeadsApart (w.selectedFiles settings ["."]) := by decide +kernel
  have hfirst : w.failure? (enabledCopies settings 2) "a.swift" = none := by
    rw [← Option.isNone_iff_eq_none]
    decide +kernel
  have hsecond : w.failure? (enabledCopies settings 2) "b.swift" = some e := by
    have hread : w.readSource "b.swift" =
        .ok (.ofContents "if (b) \x7b\n".toList (some "b.swift")) := by rfl
    have hdue : ¬(enabledCopies settings 2 = 0 ∨
        dueMatches (.ofContents "if (b) \x7b\n".toList (some "b.swift")) = []) := by
      decide +kernel
    simp only [Workspace.failure?, hread, if_neg hdue]
    rfl
  have hplace : w.tree.locate w.cwd (parse "b.swift") = .ok ["b.swift"] := by decide +kernel
  have hstored : w.stored? "b.swift" = some 0 := by decide +kernel
  have hbreaks : w.BreaksOffAt "b.swift" e ["b.swift"] :=
    ⟨hplace, _, rfl, by simp [hstored]⟩
  obtain ⟨-, hruns⟩ := @autocorrect_ends_at_first_failure settings 2 w ["."]
  obtain ⟨hends, -⟩ := hruns hapart
  obtain ⟨houtcome, ⟨files, -, hfile⟩, hlater⟩ := hends ["a.swift"] "b.swift" ["c.swift"] e hselected
    (by simpa using hfirst) hsecond
  have hrun : autocorrect settings 2 w ["."] = run := rfl
  rw [hrun] at houtcome hfile hlater
  obtain ⟨file, -, hbytes⟩ := hfile.breaks ["b.swift"] 0 hbreaks hstored
  refine ⟨hapart, hfirst, hsecond, hbreaks, houtcome, by decide +kernel, ?_, hbytes, ?_⟩
  · exact fun hsame => (hfile.keeps_iff ["b.swift"] hplace).mp hsame hbreaks
  · exact hlater "c.swift" (by simp) ["c.swift"] (by decide +kernel)

end ParenLint
