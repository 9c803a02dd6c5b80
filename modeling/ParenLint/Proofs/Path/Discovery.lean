import ParenLint.Proofs.Path.Sources
import ParenLint.Proofs.Text.Stretch

/-!
# Finding a file beneath a directory and by itself

A directory stands for the files beneath it whose names end like that of a source file, and a path to
a file stands for this file if its suffix is that of source files. The two agree about every name
except the one that is this ending and nothing else: its dot begins no suffix.
-/

namespace ParenLint

open ParenLint.Path

/-! ### The suffix of a name -/

namespace Path

/-- Behind its last dot a name has its suffix, unless nothing stands there or in front of the dot. -/
lemma suffixOf_append (stem : List Char) {ending : List Char} (hdot : '.' ∉ ending) :
    suffixOf (String.ofList (stem ++ '.' :: ending)) =
      if ending = [] ∨ stem = [] then "" else String.ofList ('.' :: ending) := by
  have htail : (stem ++ '.' :: ending).reverse.takeWhile (· ≠ '.') = ending.reverse := by
    rw [List.reverse_append, List.reverse_cons, List.append_assoc]
    apply Text.takeWhile_stretch
    · intro c hc
      simpa using ne_of_mem_of_not_mem (List.mem_reverse.mp hc) hdot
    · simp
  have hbefore : (stem ++ '.' :: ending).length - ending.length = stem.length + 1 := by
    rw [List.length_append, List.length_cons]
    omega
  have hfront : stem.length + 1 ≤ 1 ↔ stem = [] := by simp
  simp only [suffixOf, String.toList_ofList, htail, List.reverse_reverse, hbefore, hfront,
    List.isEmpty_iff]

/-- A name has the suffix of source files if it ends like that of a source file and something stands
in front of the ending. -/
lemma suffixOf_eq_sourceSuffix_iff {name : String} :
    suffixOf name = sourceSuffix ↔ FileTree.isSourceName name ∧ name ≠ sourceSuffix := by
  constructor
  · intro h
    refine ⟨(FileTree.isSourceName_of_suffixOf h).1, ?_⟩
    rintro rfl
    revert h
    decide
  · rintro ⟨hsource, hne⟩
    obtain ⟨stem, hstem⟩ := List.isSuffixOf_iff_suffix.mp hsource
    obtain rfl : String.ofList (stem ++ sourceSuffix.toList) = name := by
      rw [hstem, String.ofList_toList]
    have hfront : stem ≠ [] := by
      rintro rfl
      exact hne (by simp)
    have hdot : '.' ∉ "swift".toList := by decide
    have hsuffix := suffixOf_append stem hdot
    rwa [if_neg (by simpa using hfront)] at hsuffix

end Path

namespace FileTree

variable {t : FileTree} {cwd place : Place} {p : Path} {names : List String}
  {path target : String}

/-- A path that names the place of a file leads to no directory. -/
lemma directoryAt?_eq_none (h : (t.bytesAt? (resolve cwd p)).isSome) :
    t.directoryAt? cwd p = none := by
  rw [directoryAt?]
  cases hlocate : t.locate cwd p with
  | error failure => rfl
  | ok place =>
    rw [resolve_of_locate hlocate] at h
    have hfile : t.isDirectory place = false := by
      rw [isDirectory, ← Option.not_isSome, h]
      rfl
    simp [hfile]

lemma resolve_of_directoryAt? (h : t.directoryAt? cwd p = some place) :
    resolve cwd p = place := by
  rw [directoryAt?] at h
  cases hlocate : t.locate cwd p with
  | error failure => simp [hlocate] at h
  | ok place' =>
    simp only [hlocate] at h
    split_ifs at h
    cases h
    exact resolve_of_locate hlocate

/-- Beneath a directory, a file is found by the end of its name. -/
lemma render_mem_sourcesBeneath_iff (hnames : t.WellNamed) (hp : p.IsRead)
    (h : t.IsFileBeneath place names) :
    (p.append names).render ∈ t.sourcesBeneath place p ↔ isSourceName (p.append names).name := by
  rw [mem_sourcesBeneath_iff]
  constructor
  · rintro ⟨names', h', hsource, hspelling⟩
    -- A file is spelled in one way only.
    have heq : p.append names' = p.append names := by
      rw [← h'.parse_render hnames hp, ← hspelling, h.parse_render hnames hp]
    rwa [heq] at hsource
  · intro hsource
    exact ⟨names, h, hsource, rfl⟩

/-- By itself, a file is found by its suffix. -/
lemma sources_render_of_isFileBeneath (hnames : t.WellNamed) (hp : p.IsRead)
    (hplace : resolve cwd p = place) (h : t.IsFileBeneath place names) :
    t.sources cwd (p.append names).render =
      if (p.append names).suffix = sourceSuffix then [(p.append names).render] else [] := by
  have hfile : (t.bytesAt? (resolve cwd (p.append names))).isSome := by
    rw [resolve_append (h.dots_not_mem hnames), hplace]
    exact h.2
  rw [sources, h.parse_render hnames hp, directoryAt?_eq_none hfile]

/-- The path of a file stands for no other file. -/
lemma mem_sources_render_iff (hnames : t.WellNamed) (hp : p.IsRead)
    (hplace : resolve cwd p = place) (h : t.IsFileBeneath place names) :
    path ∈ t.sources cwd (p.append names).render ↔ path = (p.append names).render ∧
      t.sources cwd (p.append names).render = [(p.append names).render] := by
  rw [sources_render_of_isFileBeneath hnames hp hplace h]
  split_ifs <;> simp

/-- The end of a name and the suffix of a path tell the same of every file, unless its name is the
ending of source files and nothing else. -/
lemma beneath_iff_alone_iff (hnames : t.WellNamed) (hp : p.IsRead)
    (hplace : resolve cwd p = place) (h : t.IsFileBeneath place names) :
    ((p.append names).render ∈ t.sourcesBeneath place p ↔
        t.sources cwd (p.append names).render = [(p.append names).render]) ↔
      names.getLast? ≠ some sourceSuffix := by
  have hbare : isSourceName sourceSuffix := by decide
  rw [render_mem_sourcesBeneath_iff hnames hp h, sources_render_of_isFileBeneath hnames hp hplace h,
    suffix, ite_eq_left_iff, getLast?_eq_name_append h.1 p, suffixOf_eq_sourceSuffix_iff]
  generalize (p.append names).name = name
  by_cases hname : name = sourceSuffix
  · simp [hname, hbare]
  · simp [hname]

/-- A file is found beneath a directory exactly if it is found by itself, unless its name is the
ending of source files and nothing else. So the files beneath a directory, one by one, stand for the
same source files as the directory exactly if none of them has this name. -/
theorem found_beneath_iff_found_alone (hnames : t.WellNamed)
    (hdirectory : t.directoryAt? cwd (parse target) = some place) :
    let spelling := fun names => ((parse target).append names).render
    (∀ names, t.IsFileBeneath place names →
      ((spelling names ∈ t.sources cwd target ↔
          t.sources cwd (spelling names) = [spelling names]) ↔
        names.getLast? ≠ some sourceSuffix)) ∧
    ((∀ path, path ∈ t.sources cwd target ↔
        ∃ names, t.IsFileBeneath place names ∧ path ∈ t.sources cwd (spelling names)) ↔
      ∀ names, t.IsFileBeneath place names → names.getLast? ≠ some sourceSuffix) := by
  intro spelling
  have hread := isRead_parse target
  have hplace := resolve_of_directoryAt? hdirectory
  have hbeneath : t.sources cwd target = t.sourcesBeneath place (parse target) := by
    rw [sources, hdirectory]
  have hagree : ∀ names, t.IsFileBeneath place names →
      ((spelling names ∈ t.sources cwd target ↔
          t.sources cwd (spelling names) = [spelling names]) ↔
        names.getLast? ≠ some sourceSuffix) := by
    intro names h
    rw [hbeneath]
    exact beneath_iff_alone_iff hnames hread hplace h
  have halone : ∀ path names, t.IsFileBeneath place names →
      (path ∈ t.sources cwd (spelling names) ↔
        path = spelling names ∧ t.sources cwd (spelling names) = [spelling names]) :=
    fun path names h => mem_sources_render_iff hnames hread hplace h
  refine ⟨hagree, ?_⟩
  constructor
  · intro hall names h
    rw [← hagree names h, hall]
    constructor
    · rintro ⟨names', h', hpath⟩
      obtain ⟨heq, hfound⟩ := (halone _ names' h').mp hpath
      rwa [heq]
    · intro hfound
      exact ⟨names, h, (halone _ names h).mpr ⟨rfl, hfound⟩⟩
  · intro hnone path
    constructor
    · intro hpath
      obtain ⟨names, h, -, rfl⟩ := mem_sourcesBeneath_iff.mp (hbeneath ▸ hpath)
      have hfound := ((hagree names h).mpr (hnone names h)).mp hpath
      exact ⟨names, h, (halone _ names h).mpr ⟨rfl, hfound⟩⟩
    · rintro ⟨names, h, hpath⟩
      obtain ⟨rfl, hfound⟩ := (halone path names h).mp hpath
      exact ((hagree names h).mpr (hnone names h)).mpr hfound

/-- Of two hidden files beneath a directory, the one whose name is the bare ending is not found by
itself. -/
theorem bare_ending_found_beneath_only :
    let t : FileTree := ⟨[(["d", ".swift"], []), (["d", "b", "..swift"], [])], []⟩
    t.WellNamed ∧ t.directoryAt? [] (parse "d") = some ["d"] ∧
      (t.IsFileBeneath ["d"] ["b", "..swift"] ∧
        ("d/b/..swift" ∈ t.sources [] "d" ↔ t.sources [] "d/b/..swift" = ["d/b/..swift"])) ∧
      t.IsFileBeneath ["d"] [".swift"] ∧
        ¬ ("d/.swift" ∈ t.sources [] "d" ↔ t.sources [] "d/.swift" = ["d/.swift"]) ∧
        "d/.swift" ∈ t.sources [] "d" := by
  intro t
  have hnames : t.WellNamed := by decide +kernel
  have hdirectory : t.directoryAt? [] (parse "d") = some ["d"] := by decide +kernel
  obtain ⟨hagree, -⟩ := found_beneath_iff_found_alone hnames hdirectory
  have hnested : t.IsFileBeneath ["d"] ["b", "..swift"] := ⟨by decide, by decide +kernel⟩
  have hbare : t.IsFileBeneath ["d"] [".swift"] := ⟨by decide, by decide +kernel⟩
  have hspelling : ((parse "d").append ["b", "..swift"]).render = "d/b/..swift" := by decide +kernel
  have hspelling' : ((parse "d").append [".swift"]).render = "d/.swift" := by decide +kernel
  have hsame := hagree _ hnested
  have hdiffers := hagree _ hbare
  simp only [hspelling] at hsame
  simp only [hspelling'] at hdiffers
  refine ⟨hnames, hdirectory, ⟨hnested, hsame.mpr (by decide)⟩, hbare, ?_, by decide +kernel⟩
  exact fun h => hdiffers.mp h rfl

end FileTree

end ParenLint
