import ParenLint.Proofs.Rule.RawMatch
import ParenLint.Proofs.Run.FirstFailure

/-!
# The bytes that a run leaves

A correcting run reads each selected file with unified line ends. If it corrects something there it
stores the whole text as it was read, with the conditionals replaced. So the bytes outside of these
stay the same exactly if there is no carriage return among them.
-/

namespace ParenLint

open ParenLint.Config ParenLint.Path ParenLint.Swift ParenLint.Text

/-- Unified line ends are stored with the bytes of the text exactly if it has no carriage return. -/
lemma encode_unifyNewlines_eq_iff {cs : List Char} :
    encode (unifyNewlines cs) = encode cs ↔ '\r' ∉ cs := by
  constructor
  · intro h hmem
    have hcode : '\r'.toNat < 0x80 := by decide
    rw [← mem_encode_iff hcode, ← h, mem_encode_iff hcode] at hmem
    exact not_mem_unifyNewlines cs hmem
  · intro h
    rw [unifyNewlines_eq_self_iff.mpr h]

/-! ### One file -/

section File

variable {settings : Settings} {path : String}

/-- The matches that a run with one copy of the rule unwraps in a file. -/
def correctedMatches (settings : Settings) (file : SourceFile) : List Match :=
  if settings.isRuleEnabled controlStatement.identifier then dueMatches file else []

/-- The corrections that a run reports in a file. -/
def correctionsIn (settings : Settings) (file : SourceFile) : List Correction :=
  (correctedMatches settings file).reverse.map fun m =>
    controlStatement.correction (file.location m.start)

lemma wrappedIf_of_mem_correctedMatches {file : SourceFile} {m : Match}
    (hm : m ∈ correctedMatches settings file) :
    ∃ before gap body gap' after, WrappedIf file.contents m before gap body gap' after := by
  rw [correctedMatches] at hm
  split_ifs at hm
  · obtain ⟨-, before, gap, body, gap', after, h, -⟩ := exists_wrappedIf_of_mem_rewritten hm
    exact ⟨before, gap, body, gap', after, h⟩
  · cases hm

lemma pairwise_correctedMatches (settings : Settings) (file : SourceFile) :
    (correctedMatches settings file).Pairwise fun m n => m.stop ≤ n.start := by
  rw [correctedMatches]
  split_ifs
  · exact pairwise_rewritten
  · exact List.Pairwise.nil

/-- The characters that a run leaves in a file that held the characters `raw`. -/
def leftIn (settings : Settings) (path : String) (raw : List Char) : List Char :=
  let file := SourceFile.ofContents (unifyNewlines raw) (some path)
  if correctedMatches settings file = [] then raw
  else substitute 0 (correctedMatches settings file) file.contents

/-- What a run leaves are the characters before, with only the matches replaced, exactly if there is
nothing to replace or no carriage return outside of the matches. -/
lemma encode_leftIn_eq_iff {raw : List Char} {ms : List Match}
    (hms : ms = correctedMatches settings (.ofContents (unifyNewlines raw) (some path))) :
    encode (leftIn settings path raw) = encode (substitute 0 (ms.map (Match.inRaw raw)) raw) ↔
      ms = [] ∨ '\r' ∉ substitute 0 (ms.map (Match.inRaw raw)) raw := by
  by_cases hnone : ms = []
  · rw [leftIn, ← hms, if_pos hnone, hnone]
    simp [substitute]
  · have hread := unifyNewlines_substitute
      (fun m hm => wrappedIf_of_mem_correctedMatches (hms ▸ hm))
      (hms ▸ pairwise_correctedMatches ..) 0 (fun m _ => Nat.zero_le m.start)
    have hleft : leftIn settings path raw =
        unifyNewlines (substitute 0 (ms.map (Match.inRaw raw)) raw) := by
      rw [leftIn, ← hms, if_neg hnone]
      exact hread.symm
    rw [hleft, encode_unifyNewlines_eq_iff]
    exact (or_iff_right hnone).symm

lemma correctionsBy_enabledCopies (settings : Settings) (file : SourceFile) :
    file.correctionsBy (enabledCopies settings 1) = correctionsIn settings file := by
  rw [enabledCopies, correctionsIn, correctedMatches]
  split_ifs
  · exact List.append_nil _
  · rfl

/-- A pass leaves the text with all due matches replaced, if there are any. -/
lemma left_enabledCopies (settings : Settings) (f : OpenedFile) :
    f.left (enabledCopies settings 1) = leftIn settings f.path f.raw := by
  have hfile : SourceFile.ofContents (unifyNewlines f.raw) (some f.path) = f.source := rfl
  have hnone : f.source.correctionsBy (enabledCopies settings 1) = [] ↔
      correctedMatches settings f.source = [] := by
    simp [correctionsBy_enabledCopies, correctionsIn]
  simp only [OpenedFile.left, leftIn, hfile, hnone]
  split_ifs with hmatches
  · rfl
  · have hrule : settings.isRuleEnabled controlStatement.identifier = true := by
      by_contra hrule
      exact hmatches (if_neg hrule)
    have hdue : correctedMatches settings f.source = dueMatches f.source := if_pos hrule
    rw [hdue, enabledCopies, if_pos hrule]
    exact unwrapAll_rewritten _ _ _

end File

/-! ### All selected files -/

section Run

variable {settings : Settings} {w w' : Workspace} {path : String} {paths : List String}
  {found : List Correction}

/-- A run over paths has reported corrections and left other bytes in the files that they lead
to. -/
structure Rewrites (settings : Settings) (w w' : Workspace) (paths : List String)
    (found : List Correction) : Prop where
  unselected : ∀ place, (∀ path ∈ paths, w.tree.locate w.cwd (parse path) ≠ .ok place) →
    w'.tree.bytesAt? place = w.tree.bytesAt? place
  selected : ∀ path ∈ paths, ∃ place raw,
    OpensText w path place raw ∧ w'.tree.bytesAt? place = some (encode (leftIn settings path raw)) ∧
      found.filter (fun c => c.location.file = some path) =
        correctionsIn settings (.ofContents (unifyNewlines raw) (some path))
  named : ∀ c ∈ found, ∃ path ∈ paths, c.location.file = some path

lemma file_of_mem_correctionsIn {contents : List Char} {c : Correction}
    (hc : c ∈ correctionsIn settings (.ofContents contents (some path))) :
    c.location.file = some path := by
  obtain ⟨m, -, rfl⟩ := List.mem_map.mp hc
  rfl

/-- Files at different places are rewritten each on its own. -/
lemma Corrects.rewrites {files : List OpenedFile}
    (h : Corrects (enabledCopies settings 1) w w' files)
    (hpaths : (files.map OpenedFile.path).Nodup) :
    Rewrites settings w w' (files.map OpenedFile.path)
      (files.flatMap fun f => f.source.correctionsBy (enabledCopies settings 1)) := by
  simp only [correctionsBy_enabledCopies]
  refine ⟨?_, ?_, ?_⟩
  · intro place hnone
    apply h.others
    rintro f hf rfl
    exact hnone f.path (List.mem_map_of_mem hf) (h.opens f hf).locate_eq
  · intro path hpath
    obtain ⟨f, hf, rfl⟩ := List.mem_map.mp hpath
    refine ⟨f.place, f.raw, h.opens f hf, ?_, ?_⟩
    · rw [h.holds f hf, left_enabledCopies]
    · have hnamed := OpenedFile.filter_flatMap_report (fun f => correctionsIn settings f.source)
        (fun _ _ hc => file_of_mem_correctionsIn hc) files f.path
      rw [hnamed, OpenedFile.filter_path_eq_singleton hf hpaths, List.flatMap_singleton]
      rfl
  · intro c hc
    obtain ⟨f, hf, hc⟩ := List.mem_flatMap.mp hc
    exact ⟨f.path, List.mem_map_of_mem hf, file_of_mem_correctionsIn hc⟩

lemma leadsApart_of_nodup (h : (paths.map fun path => w.tree.locate w.cwd (parse path)).Nodup) :
    w.LeadsApart paths := by
  refine (List.pairwise_map.mp h).imp ?_
  intro path path' hne place hplace hplace'
  exact hne (hplace.trans hplace'.symm)

lemma rewrites_autocorrect {targets : List String} {summary : CorrectSummary}
    (hdistinct : ((w.selectedFiles settings targets).map fun path =>
      w.tree.locate w.cwd (parse path)).Nodup)
    (hrun : (autocorrect settings 1 w targets).outcome = .ok summary) :
    Rewrites settings w (autocorrect settings 1 w targets).workspace
      (w.selectedFiles settings targets) summary.corrections := by
  obtain ⟨files, hfiles, hcorrects, hcorrections, -⟩ :=
    exists_corrects_of_autocorrect (leadsApart_of_nodup hdistinct) hrun
  rw [hcorrections, ← hfiles]
  exact hcorrects.rewrites (hfiles ▸ hdistinct.of_map)

/-- A run with one copy of the rule that selects no file twice and comes to its end leaves the files
that it does not select as they were. A selected file with something to correct holds the text that
was read, with the matches of the reported corrections replaced. These are its bytes before with
only the matches replaced exactly if there is no carriage return outside of the matches. -/
theorem autocorrect_leaves_bytes_iff {settings : Settings} {w : Workspace} {targets : List String}
    {summary : CorrectSummary}
    (hdistinct : ((w.selectedFiles settings targets).map fun path =>
      w.tree.locate w.cwd (parse path)).Nodup)
    (hrun : (autocorrect settings 1 w targets).outcome = .ok summary) :
    let after := (autocorrect settings 1 w targets).workspace.tree
    (∀ place, (∀ path ∈ w.selectedFiles settings targets,
        w.tree.locate w.cwd (parse path) ≠ .ok place) →
      after.bytesAt? place = w.tree.bytesAt? place) ∧
    ∀ path ∈ w.selectedFiles settings targets, ∃ place raw,
      w.tree.openFile w.cwd (parse path) = .ok (place, encode raw) ∧
      decode (encode raw) = .ok raw ∧
      let file := SourceFile.ofContents (unifyNewlines raw) (some path)
      let ms := correctedMatches settings file
      (∀ m ∈ ms, (∃ before gap body gap' rest,
          WrappedIf file.contents m before gap body gap' rest) ∧
        unifyNewlines (m.inRaw raw).text = m.text) ∧
      ms.Pairwise (fun m n => m.stop ≤ n.start) ∧
      (summary.corrections.filter (fun c => c.location.file = some path) = ms.reverse.map fun m =>
        controlStatement.correction (file.location m.start)) ∧
      (ms = [] → after.bytesAt? place = some (encode raw)) ∧
      (ms ≠ [] → after.bytesAt? place = some (encode (substitute 0 ms file.contents))) ∧
      (after.bytesAt? place = some (encode (substitute 0 (ms.map (Match.inRaw raw)) raw)) ↔
        ms = [] ∨ '\r' ∉ substitute 0 (ms.map (Match.inRaw raw)) raw) := by
  intro after
  have hrewrites := rewrites_autocorrect hdistinct hrun
  refine ⟨hrewrites.unselected, fun path hpath => ?_⟩
  obtain ⟨place, raw, hopen, hbytes, hfilter⟩ := hrewrites.selected path hpath
  refine ⟨place, raw, hopen.open_eq, hopen.decode_eq, ?_⟩
  intro file ms
  have hbytes : after.bytesAt? place = some (encode (leftIn settings path raw)) := hbytes
  refine ⟨?_, pairwise_correctedMatches .., hfilter, ?_, ?_, ?_⟩
  · intro m hm
    obtain ⟨before, gap, body, gap', rest, hwrapped⟩ := wrappedIf_of_mem_correctedMatches hm
    exact ⟨⟨before, gap, body, gap', rest, hwrapped⟩, hwrapped.unifyNewlines_inRaw⟩
  · intro hnone
    rw [hbytes, leftIn, if_pos hnone]
  · intro hsome
    rw [hbytes, leftIn, if_neg hsome]
  · rw [hbytes, Option.some.injEq, encode_leftIn_eq_iff rfl]

/-- The two line ends behind the condition change with it. -/
theorem autocorrect_changes_line_ends :
    let raw := "if (a) \x7b\r\n\x7d\r\n".toList
    let settings : Settings := ⟨[]⟩
    let w : Workspace := ⟨(⟨[(["a.swift"], encode raw)], []⟩ : FileTree), [], []⟩
    let run := autocorrect settings 1 w ["a.swift"]
    ((w.selectedFiles settings ["a.swift"]).map fun path =>
        w.tree.locate w.cwd (parse path)).Nodup ∧
      ∃ summary, run.outcome = .ok summary ∧
        summary.corrections.map Correction.location = [⟨some "a.swift", 0, 1, 1⟩] ∧
        run.workspace.tree.bytesAt? ["a.swift"] = some (encode "if a \x7b\n\x7d\n".toList) ∧
        run.workspace.tree.bytesAt? ["a.swift"] ≠ some (encode (substitute 0
          ((correctedMatches settings (.ofContents (unifyNewlines raw) (some "a.swift"))).map
            (Match.inRaw raw)) raw)) := by
  intro raw settings w run
  have hfiles : w.selectedFiles settings ["a.swift"] = ["a.swift"] := by decide +kernel
  have hdistinct : ((w.selectedFiles settings ["a.swift"]).map fun path =>
      w.tree.locate w.cwd (parse path)).Nodup := by
    rw [hfiles]
    exact List.nodup_singleton _
  have hfound : run.outcome.toOption.map (fun summary =>
      summary.corrections.map Correction.location) = some [⟨some "a.swift", 0, 1, 1⟩] := by
    decide +kernel
  obtain ⟨summary, hrun⟩ : ∃ summary, run.outcome = .ok summary := by
    cases hrun : run.outcome with
    | error e => simp [hrun, Except.toOption] at hfound
    | ok summary => exact ⟨summary, rfl⟩
  refine ⟨hdistinct, summary, hrun, by simpa [hrun, Except.toOption] using hfound,
    by decide +kernel, ?_⟩
  obtain ⟨-, hselected⟩ := autocorrect_leaves_bytes_iff hdistinct hrun
  obtain ⟨place, raw', hopen, hdecode, -, -, -, -, -, hiff⟩ :=
    hselected "a.swift" (by simp [hfiles])
  have hplace : w.tree.openFile w.cwd (parse "a.swift") = .ok (["a.swift"], encode raw) := by
    decide +kernel
  obtain ⟨rfl, hbytes⟩ := Prod.mk.inj (Except.ok.inj (hopen.symm.trans hplace))
  have hraw : decode (encode raw) = .ok raw := by decide +kernel
  rw [hbytes] at hdecode
  obtain rfl := Except.ok.inj (hdecode.symm.trans hraw)
  exact fun hleft => absurd (hiff.mp hleft) (by decide +kernel)

end Run

end ParenLint
