import ParenLint.Proofs.Path.Sources
import ParenLint.Proofs.Run.FirstFailure

/-!
# The files that a run changes

A correcting run that comes to its end changes the bytes of those files that its corrections name,
and counts them. All of them are source files that the targets stand for and the settings select.
-/

namespace ParenLint

open ParenLint.Path ParenLint.Text

/-! ### Selected places -/

/-- A place of a source file that targets stand for and that settings select. -/
structure Workspace.Selects (w : Workspace) (settings : Config.Settings) (targets : List String)
    (place : Place) : Prop where
  isSource : ∃ name ∈ place.getLast?, FileTree.isSourceName name
  target : ∃ target ∈ targets, isUnder place (resolve w.cwd (parse target))
  included : settings.included ≠ [] →
    ∃ root ∈ settings.included, isUnder place (resolve w.cwd (parse root))
  excluded : ∀ root ∈ settings.excluded, ¬isUnder place (resolve w.cwd (parse root))

variable {settings : Config.Settings} {copies n : Nat} {w w' : Workspace} {f : OpenedFile}
  {files : List OpenedFile} {path : String} {paths targets : List String} {place : Place}

lemma Workspace.selects_of_mem_selectedFiles (hnames : w.tree.WellNamed)
    (hpath : path ∈ w.selectedFiles settings targets)
    (hplace : w.tree.locate w.cwd (parse path) = .ok place) : w.Selects settings targets place := by
  obtain ⟨hsource, hselected⟩ := List.mem_filter.mp hpath
  obtain ⟨target, htarget, hsource⟩ := List.mem_flatMap.mp hsource
  obtain rfl := FileTree.resolve_of_locate hplace
  obtain ⟨hunder, hname⟩ := FileTree.isUnder_of_mem_sources hnames hsource
  simp only [liesUnder, Bool.and_eq_true, Bool.or_eq_true, List.isEmpty_iff, List.any_eq_true,
    Bool.not_eq_true', List.any_eq_false] at hselected
  exact ⟨hname, ⟨target, htarget, hunder⟩, hselected.1.resolve_left, hselected.2⟩

/-! ### Changed places -/

/-- The places of the files in which passes correct something. -/
def changedPlaces (n : Nat) (files : List OpenedFile) : List Place :=
  (files.filter fun f => !(f.source.correctionsBy n).isEmpty).map OpenedFile.place

lemma mem_changedPlaces : place ∈ changedPlaces n files ↔
    ∃ f ∈ files, f.source.correctionsBy n ≠ [] ∧ f.place = place := by
  simp [changedPlaces, and_assoc]

namespace Corrects

lemma pairwise_place (h : Corrects n w w' files) (hapart : w.LeadsApart (files.map OpenedFile.path)) :
    files.Pairwise fun f g => f.place ≠ g.place := by
  refine (List.pairwise_map.mp hapart).imp_of_mem ?_
  intro f g hf hg hne heq
  exact hne f.place (h.opens f hf).locate_eq (heq ▸ (h.opens g hg).locate_eq)

lemma nodup_changedPlaces (h : Corrects n w w' files)
    (hapart : w.LeadsApart (files.map OpenedFile.path)) : (changedPlaces n files).Nodup := by
  rw [changedPlaces, List.Nodup, List.pairwise_map]
  exact (h.pairwise_place hapart).filter _

/-- The bytes change at these places and nowhere else. -/
lemma mem_changedPlaces_iff_bytesAt?_ne (h : Corrects n w w' files) :
    place ∈ changedPlaces n files ↔ w'.tree.bytesAt? place ≠ w.tree.bytesAt? place := by
  have hbytes : ∀ f ∈ files, w'.tree.bytesAt? f.place ≠ w.tree.bytesAt? f.place ↔
      f.source.correctionsBy n ≠ [] := by
    intro f hf
    rw [h.holds f hf, (h.opens f hf).bytesAt?_eq, ne_eq, Option.some.injEq]
    exact OpenedFile.encode_left_ne_iff
  rw [mem_changedPlaces]
  constructor
  · rintro ⟨f, hf, hcorrections, rfl⟩
    exact (hbytes f hf).mpr hcorrections
  · intro hne
    by_cases hselected : ∃ f ∈ files, f.place = place
    · obtain ⟨f, hf, rfl⟩ := hselected
      exact ⟨f, hf, (hbytes f hf).mp hne, rfl⟩
    · exact absurd (h.others place fun f hf heq => hselected ⟨f, hf, heq⟩) hne

/-- The files at these places are named by the corrections, and no others are. -/
lemma mem_changedPlaces_iff_names (h : Corrects n w w' files) :
    place ∈ changedPlaces n files ↔
      ∃ c ∈ files.flatMap fun f => f.source.correctionsBy n, c.Names w place := by
  rw [mem_changedPlaces]
  constructor
  · rintro ⟨f, hf, hcorrections, rfl⟩
    obtain ⟨c, hc⟩ := List.exists_mem_of_ne_nil _ hcorrections
    exact ⟨c, List.mem_flatMap.mpr ⟨f, hf, hc⟩, f.path, SourceFile.file_of_mem_correctionsBy hc,
      (h.opens f hf).locate_eq⟩
  · rintro ⟨c, hc, path, hpath, hplace⟩
    obtain ⟨f, hf, hc⟩ := List.mem_flatMap.mp hc
    have hfile : c.location.file = some f.path := SourceFile.file_of_mem_correctionsBy hc
    obtain rfl : f.path = path := Option.some.inj (hfile.symm.trans hpath)
    rw [(h.opens f hf).locate_eq] at hplace
    exact ⟨f, hf, List.ne_nil_of_mem hc, Except.ok.inj hplace⟩

end Corrects

/-! ### A rule that is switched off -/

/-- Without a copy of the rule nothing is stored. -/
lemma workspace_correctPaths_of_disabled
    (hdisabled : settings.isRuleEnabled controlStatement.identifier = false) (copies : Nat)
    (w : Workspace) (paths : List String) : (correctPaths settings copies w paths).2.1 = w := by
  have hcopies : enabledCopies settings copies = 0 := by simp [enabledCopies, hdisabled]
  have hfile : ∀ path, (correctPath settings copies w path).workspace = w := by
    intro path
    rw [correctPath, hcopies]
    cases w.readSource path <;> rfl
  induction paths with
  | nil => rfl
  | cons path paths ih =>
    rw [correctPaths]
    cases (correctPath settings copies w path).outcome with
    | error e => exact hfile path
    | ok corrections => simpa [hfile path] using ih

/-! ### The report -/

/-- A correcting run that selects no file twice and comes to its end changes the bytes of exactly
those files that one of its corrections names, and counts them. They are source files under the
targets, under an included path if there is any, and under no excluded one. A run with the rule
switched off changes nothing. -/
theorem autocorrect_report_tells_changes {settings : Config.Settings} {copies : Nat}
    {w : Workspace} {targets : List String} (hnames : w.tree.WellNamed)
    (hapart : w.LeadsApart (w.selectedFiles settings targets)) :
    let run := autocorrect settings copies w targets
    (∀ summary, run.outcome = .ok summary →
      ∃ changed : List Place, changed.Nodup ∧ summary.corrected = changed.length ∧
        ∀ place,
          (place ∈ changed ↔ run.workspace.tree.bytesAt? place ≠ w.tree.bytesAt? place) ∧
          (place ∈ changed ↔ ∃ c ∈ summary.corrections, c.Names w place) ∧
          (place ∈ changed → w.Selects settings targets place)) ∧
    (settings.isRuleEnabled controlStatement.identifier = false → run.workspace = w) := by
  intro run
  constructor
  · intro summary hok
    obtain ⟨files, hfiles, hcorrects, hcorrections, hcorrected⟩ :=
      exists_corrects_of_autocorrect hapart hok
    refine ⟨changedPlaces (enabledCopies settings copies) files, ?_, ?_, ?_⟩
    · exact hcorrects.nodup_changedPlaces (hfiles ▸ hapart)
    · rw [hcorrected, changedPlaces, List.length_map]
    · intro place
      rw [hcorrections]
      refine ⟨hcorrects.mem_changedPlaces_iff_bytesAt?_ne, hcorrects.mem_changedPlaces_iff_names, ?_⟩
      intro hchanged
      obtain ⟨f, hf, -, rfl⟩ := mem_changedPlaces.mp hchanged
      exact Workspace.selects_of_mem_selectedFiles hnames (hfiles ▸ List.mem_map_of_mem hf)
        (hcorrects.opens f hf).locate_eq
  · intro hdisabled
    exact workspace_correctPaths_of_disabled hdisabled copies w _

/-- Of four files with parentheses, one is selected. -/
theorem autocorrect_report_tells_selected_file :
    let settings : Config.Settings := ⟨[(.string "included", .list [.string "lib"]),
      (.string "excluded", .list [.string "lib/gen"])]⟩
    let w : Workspace :=
      { tree := ⟨[(["lib", "a.swift"], encode "if ((a)) \x7b\r\n".toList),
          (["lib", "b.swift"], encode "let b\r\n".toList),
          (["lib", "gen", "c.swift"], encode "if (c) \x7b\n".toList),
          (["main.swift"], encode "if (d) \x7b\n".toList)], []⟩
        cwd := []
        refused := [] }
    let run := autocorrect settings 2 w ["."]
    w.tree.WellNamed ∧ w.LeadsApart (w.selectedFiles settings ["."]) ∧
      run.workspace.tree.bytesAt? ["lib", "a.swift"] ≠ w.tree.bytesAt? ["lib", "a.swift"] ∧
      (∃ summary, run.outcome = .ok summary ∧ summary.corrected = 1 ∧
        ∃ c ∈ summary.corrections, c.Names w ["lib", "a.swift"]) ∧
      w.Selects settings ["."] ["lib", "a.swift"] := by
  intro settings w run
  have hnames : w.tree.WellNamed := by decide +kernel
  have hapart : w.LeadsApart (w.selectedFiles settings ["."]) := by decide +kernel
  have hbytes : run.workspace.tree.bytesAt? ["lib", "a.swift"] ≠
      w.tree.bytesAt? ["lib", "a.swift"] := by decide +kernel
  obtain ⟨summary, hok, hcorrected⟩ :
      ∃ summary, run.outcome = .ok summary ∧ summary.corrected = 1 := by
    have hcount : run.outcome.toOption.map CorrectSummary.corrected = some 1 := by decide +kernel
    cases hok : run.outcome with
    | error e => simp [hok, Except.toOption] at hcount
    | ok summary => exact ⟨summary, rfl, by simpa [hok, Except.toOption] using hcount⟩
  obtain ⟨changed, -, -, hchanged⟩ :=
    (@autocorrect_report_tells_changes settings 2 w ["."] hnames hapart).1 summary hok
  obtain ⟨hdiffers, hnamed, hselects⟩ := hchanged ["lib", "a.swift"]
  have hrun : autocorrect settings 2 w ["."] = run := rfl
  rw [hrun] at hdiffers
  have hmem := hdiffers.mpr hbytes
  exact ⟨hnames, hapart, hbytes, ⟨summary, hok, hcorrected, hnamed.mp hmem⟩, hselects hmem⟩

end ParenLint
