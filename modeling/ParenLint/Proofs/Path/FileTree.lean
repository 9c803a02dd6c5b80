import Mathlib.Tactic.Lemma
import Mathlib.Tactic.SplitIfs
import ParenLint.Path.FileTree

/-!
# Overwriting a file

Other bytes in a file change what is found at its place and nothing else: paths lead to the same
places as before, and every other file keeps its bytes.
-/

namespace ParenLint.FileTree

open ParenLint.Path

variable {t : FileTree} {place place' cwd : Place} {bytes : List UInt8} {p : Path}

lemma bytesAt?_overwrite (t : FileTree) (place place' : Place) (bytes : List UInt8) :
    (t.overwrite place bytes).bytesAt? place' =
      if place' = place then (t.bytesAt? place).map fun _ => bytes else t.bytesAt? place' := by
  have hplaces : ((·.1 == place') ∘ fun f : Place × List UInt8 =>
      if f.1 = place then (place, bytes) else f) = (·.1 == place') := by
    funext f
    rw [Function.comp_apply]
    split_ifs with h
    · rw [h]
    · rfl
  rw [bytesAt?, overwrite, List.find?_map, hplaces]
  split_ifs with hplace
  · rw [hplace, bytesAt?]
    cases hfind : t.files.find? (·.1 == place) with
    | none => rfl
    | some f =>
      have hf : f.1 = place := by simpa using List.find?_some hfind
      simp [hf]
  · rw [bytesAt?]
    cases hfind : t.files.find? (·.1 == place') with
    | none => rfl
    | some f =>
      have hf : f.1 = place' := by simpa using List.find?_some hfind
      simp [hf, hplace]

lemma isSome_bytesAt?_overwrite (t : FileTree) (place place' : Place) (bytes : List UInt8) :
    ((t.overwrite place bytes).bytesAt? place').isSome = (t.bytesAt? place').isSome := by
  rw [bytesAt?_overwrite]
  split_ifs with h
  · rw [h, Option.isSome_map]
  · rfl

lemma isDirectory_overwrite (t : FileTree) (place place' : Place) (bytes : List UInt8) :
    (t.overwrite place bytes).isDirectory place' = t.isDirectory place' := by
  have hplaces : (t.overwrite place bytes).files.map (·.1) = t.files.map (·.1) := by
    rw [overwrite, List.map_map]
    apply List.map_congr_left
    intro f _
    rw [Function.comp_apply]
    split_ifs with h
    · exact h.symm
    · rfl
  rw [isDirectory, isDirectory, hplaces, ← Option.not_isSome, ← Option.not_isSome,
    isSome_bytesAt?_overwrite]
  rfl

lemma walk_overwrite (t : FileTree) (place place' : Place) (bytes : List UInt8)
    (names : List String) : (t.overwrite place bytes).walk place' names = t.walk place' names := by
  induction names generalizing place' with
  | nil => rfl
  | cons name names ih =>
    rw [walk, walk, isDirectory_overwrite, isSome_bytesAt?_overwrite, ih]

/-- Every path leads to the place that it led to before. -/
lemma locate_overwrite (t : FileTree) (place cwd : Place) (bytes : List UInt8) (p : Path) :
    (t.overwrite place bytes).locate cwd p = t.locate cwd p :=
  walk_overwrite ..

lemma overwrite_overwrite (t : FileTree) (place : Place) (bytes bytes' : List UInt8) :
    (t.overwrite place bytes).overwrite place bytes' = t.overwrite place bytes' := by
  simp only [overwrite, List.map_map]
  congr 1
  apply List.map_congr_left
  intro f _
  by_cases h : f.1 = place <;> simp [h]

/-- A path to another place opens as before. -/
lemma openFile_overwrite_of_ne (h : t.locate cwd p ≠ .ok place) :
    (t.overwrite place bytes).openFile cwd p = t.openFile cwd p := by
  rw [openFile, openFile, locate_overwrite]
  cases hlocate : t.locate cwd p with
  | error failure => rfl
  | ok q =>
    have hne : q ≠ place := by
      rintro rfl
      exact h hlocate
    simp only [bytesAt?_overwrite, if_neg hne, isDirectory_overwrite]

lemma openFile_eq_ok_iff :
    t.openFile cwd p = .ok (place, bytes) ↔
      t.locate cwd p = .ok place ∧ t.bytesAt? place = some bytes := by
  rw [openFile]
  cases t.locate cwd p with
  | error failure => simp
  | ok q =>
    dsimp only
    cases hbytes : t.bytesAt? q with
    | none =>
      simp only [reduceCtorEq, Except.ok.injEq, false_iff, not_and]
      rintro rfl
      simp [hbytes]
    | some bs =>
      simp only [Except.ok.injEq, Prod.mk.injEq, and_congr_right_iff]
      rintro rfl
      simp [hbytes]

end ParenLint.FileTree
