import ParenLint.Path.Discovery
import ParenLint.Path.Selection
import ParenLint.Proofs.Path.FileTree
import ParenLint.Proofs.Path.Spelling

/-!
# The places of source files

The files that a target stands for lie under the place of this target and have the name of a source
file. A path that leads anywhere leads to the place that it names.
-/

namespace ParenLint

open ParenLint.Path

/-! ### Places that paths name -/

namespace Path

variable {p : Path} {names : List String}

/-- A suffix is at the end of its name. -/
lemma suffixOf_suffix (name : String) : (suffixOf name).toList <:+ name.toList := by
  have hsplit := List.takeWhile_append_dropWhile (p := (· ≠ '.')) (l := name.toList.reverse)
  have hstop := List.head?_dropWhile_not (· ≠ '.') name.toList.reverse
  rw [suffixOf]
  generalize name.toList.reverse.takeWhile (· ≠ '.') = tail at hsplit ⊢
  generalize name.toList.reverse.dropWhile (· ≠ '.') = rest at hsplit hstop
  have hname : name.toList = rest.reverse ++ tail.reverse := by
    rw [← List.reverse_append, hsplit, List.reverse_reverse]
  split_ifs with hnone
  · simp
  · cases rest with
    | nil => simp [hname] at hnone
    | cons c rest =>
      obtain rfl : c = '.' := by simpa using hstop
      exact ⟨rest.reverse, by simp [hname]⟩

/-- Going along names without double dots ends beneath the place where it begins. -/
lemma foldl_step (hdots : ".." ∉ names) (place : Place) : names.foldl step place = place ++ names := by
  induction names generalizing place with
  | nil => simp
  | cons name names ih =>
    obtain ⟨hname, hnames⟩ := not_or.mp (mt List.mem_cons.mpr hdots)
    rw [List.foldl_cons, ih hnames, step, if_neg (Ne.symm hname), List.append_assoc]
    rfl

lemma resolve_append (hdots : ".." ∉ names) (cwd : Place) (p : Path) :
    resolve cwd (p.append names) = resolve cwd p ++ names := by
  simp only [resolve, append, List.foldl_append]
  exact foldl_step hdots _

lemma getLast?_eq_name_append (hne : names ≠ []) (p : Path) :
    names.getLast? = some (p.append names).name := by
  simp [name, append, List.getLast?_append, List.getLast?_eq_some_getLast hne]

/-- A path whose last name does not lead back names a place with this name. -/
lemma getLast?_resolve (hnames : p.names ≠ []) (hdots : p.name ≠ "..") (cwd : Place) :
    (resolve cwd p).getLast? = some p.name := by
  have hlast : p.names.getLast? = some p.name := by
    rw [Path.name, List.getLast?_eq_some_getLast hnames, Option.getD_some]
  obtain ⟨front, hsplit⟩ := List.getLast?_eq_some_iff.mp hlast
  rw [resolve, hsplit, List.foldl_append, List.foldl_cons, step, if_neg hdots]
  simp

end Path

/-! ### Source files -/

namespace FileTree

variable {t : FileTree} {cwd place : Place} {p : Path} {names : List String} {target path : String}

lemma foldl_of_walk {start : Place} (h : t.walk start names = .ok place) :
    names.foldl step start = place := by
  induction names generalizing start with
  | nil => exact Except.ok.inj h
  | cons name names ih =>
    rw [walk] at h
    split_ifs at h
    exact ih h

/-- A path leads to the place that it names, if anywhere. -/
lemma resolve_of_locate (h : t.locate cwd p = .ok place) : resolve cwd p = place :=
  foldl_of_walk h

/-- The names of all files are such as a system allows: they can stand in a path and do not lead
back. -/
def WellNamed (t : FileTree) : Prop :=
  ∀ f ∈ t.files, ∀ name ∈ f.1, IsKept name ∧ name ≠ ".."

instance (t : FileTree) : Decidable t.WellNamed :=
  inferInstanceAs (Decidable (∀ f ∈ t.files, ∀ name ∈ f.1, IsKept name ∧ name ≠ ".."))

lemma isSome_bytesAt?_iff : (t.bytesAt? place).isSome ↔ ∃ f ∈ t.files, f.1 = place := by
  simp [bytesAt?, List.find?_isSome]

/-- The names lead from a place to a file beneath it. -/
def IsFileBeneath (t : FileTree) (place : Place) (names : List String) : Prop :=
  names ≠ [] ∧ (t.bytesAt? (place ++ names)).isSome

lemma mem_filesBeneath_iff : names ∈ t.filesBeneath place ↔ t.IsFileBeneath place names := by
  rw [filesBeneath, List.mem_filterMap, IsFileBeneath, isSome_bytesAt?_iff]
  constructor
  · rintro ⟨f, hf, hnames⟩
    split_ifs at hnames with hbeneath
    obtain ⟨hunder, hne⟩ := hbeneath
    obtain ⟨rest, hrest⟩ := List.isPrefixOf_iff_prefix.mp hunder
    obtain rfl : rest = names := by simpa [← hrest] using hnames
    refine ⟨?_, f, hf, hrest.symm⟩
    rintro rfl
    exact hne (by simpa using hrest)
  · rintro ⟨hne, f, hf, hplace⟩
    have hunder : place.isPrefixOf f.1 := by simp [hplace]
    refine ⟨f, hf, ?_⟩
    rw [if_pos ⟨hunder, by simpa [hplace] using hne⟩, hplace, List.drop_left]

namespace IsFileBeneath

lemma isKept (h : t.IsFileBeneath place names) (hnames : t.WellNamed) :
    ∀ name ∈ names, IsKept name ∧ name ≠ ".." := by
  obtain ⟨f, hf, hplace⟩ := isSome_bytesAt?_iff.mp h.2
  intro name hname
  exact hnames f hf name (hplace ▸ List.mem_append_right place hname)

lemma dots_not_mem (h : t.IsFileBeneath place names) (hnames : t.WellNamed) : ".." ∉ names :=
  fun hdots => (h.isKept hnames _ hdots).2 rfl

/-- The path to a file beneath a place is read back from its spelling. -/
lemma parse_render (h : t.IsFileBeneath place names) (hnames : t.WellNamed) (hp : p.IsRead) :
    parse (p.append names).render = p.append names :=
  (hp.append fun name hname => (h.isKept hnames name hname).1).parse_render

end IsFileBeneath

lemma mem_sourcesBeneath_iff :
    path ∈ t.sourcesBeneath place p ↔ ∃ names, t.IsFileBeneath place names ∧
      isSourceName (p.append names).name ∧ path = (p.append names).render := by
  simp only [sourcesBeneath, mem_sortBy, List.mem_map, List.mem_filter, mem_filesBeneath_iff]
  apply exists_congr
  intro names
  rw [and_assoc]
  apply and_congr_right
  intro h
  rw [getLast?_eq_name_append h.1 p, Option.getD_some, @eq_comm _ path]

lemma isSourceName_of_suffixOf {name : String} (h : suffixOf name = sourceSuffix) :
    isSourceName name ∧ name ≠ ".." := by
  constructor
  · rw [isSourceName, List.isSuffixOf_iff_suffix, ← h]
    exact suffixOf_suffix name
  · rintro rfl
    revert h
    decide

lemma exists_of_mem_sourcesBeneath (hnames : t.WellNamed) (hp : p.IsRead)
    (h : path ∈ t.sourcesBeneath place p) :
    ∃ names, parse path = p.append names ∧ ".." ∉ names ∧
      isSourceName (parse path).name ∧ (parse path).name ≠ ".." := by
  obtain ⟨names, hfile, hsource, rfl⟩ := mem_sourcesBeneath_iff.mp h
  have hname : (p.append names).name ∈ names :=
    List.mem_of_getLast? (getLast?_eq_name_append hfile.1 p)
  rw [hfile.parse_render hnames hp]
  exact ⟨names, rfl, hfile.dots_not_mem hnames, hsource, (hfile.isKept hnames _ hname).2⟩

/-- The path of a source file continues its target by names that do not lead back. -/
lemma exists_of_mem_sources (hnames : t.WellNamed) (h : path ∈ t.sources cwd target) :
    ∃ names, parse path = (parse target).append names ∧ ".." ∉ names ∧
      isSourceName (parse path).name ∧ (parse path).name ≠ ".." := by
  have hread := isRead_parse target
  rw [sources] at h
  cases hdirectory : t.directoryAt? cwd (parse target) with
  | some place =>
    simp only [hdirectory] at h
    exact exists_of_mem_sourcesBeneath hnames hread h
  | none =>
    simp only [hdirectory] at h
    split_ifs at h with hsuffix
    · obtain rfl := List.mem_singleton.mp h
      rw [hread.parse_render]
      exact ⟨[], by rw [append, List.append_nil], List.not_mem_nil, isSourceName_of_suffixOf hsuffix⟩
    · cases h

/-- The places of source files are under the target and have the name of a source file. -/
theorem isUnder_of_mem_sources (hnames : t.WellNamed) (h : path ∈ t.sources cwd target) :
    isUnder (resolve cwd (parse path)) (resolve cwd (parse target)) ∧
      ∃ name ∈ (resolve cwd (parse path)).getLast?, isSourceName name := by
  obtain ⟨names, hparse, hback, hsource, hdots⟩ := exists_of_mem_sources hnames h
  constructor
  · rw [hparse, resolve_append hback, isUnder, List.isPrefixOf_iff_prefix]
    exact List.prefix_append _ _
  · have hne : (parse path).names ≠ [] := by
      intro hnil
      rw [Path.name, hnil] at hsource
      revert hsource
      decide
    exact ⟨_, getLast?_resolve hne hdots cwd, hsource⟩

end FileTree

end ParenLint
