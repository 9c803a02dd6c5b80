import ParenLint.Proofs.Path.FileTree
import ParenLint.Proofs.Text.Utf8
import ParenLint.Run.Workspace

/-!
# Storing a file in a workspace

A file that is read is the text that its bytes encode, with unified line ends. Storing other bytes in
it changes the workspace at its place and nowhere else, so that every path to another place is read
as before.
-/

namespace ParenLint

open ParenLint.Path ParenLint.Text

variable {w w₁ w₂ : Workspace} {path : String} {paths : List String} {place : Place}
  {raw : List Char} {bytes old : List UInt8}

/-- A path leads to a file whose bytes are those of a text. -/
structure OpensText (w : Workspace) (path : String) (place : Place) (raw : List Char) : Prop where
  open_eq : w.tree.openFile w.cwd (parse path) = .ok (place, encode raw)
  decode_eq : decode (encode raw) = .ok raw

lemma OpensText.locate_eq (h : OpensText w path place raw) :
    w.tree.locate w.cwd (parse path) = .ok place :=
  (FileTree.openFile_eq_ok_iff.mp h.open_eq).1

lemma OpensText.bytesAt?_eq (h : OpensText w path place raw) :
    w.tree.bytesAt? place = some (encode raw) :=
  (FileTree.openFile_eq_ok_iff.mp h.open_eq).2

/-- A file whose bytes are read is there. -/
lemma openFile_of_readBytes (h : w.readBytes path = .ok bytes) :
    ∃ place, w.tree.openFile w.cwd (parse path) = .ok (place, bytes) := by
  rw [Workspace.readBytes] at h
  cases hopen : w.tree.openFile w.cwd (parse path) with
  | error e => simp [hopen] at h
  | ok found =>
    obtain ⟨place, bytes'⟩ := found
    simp only [hopen] at h
    split at h
    · cases h
    · exact ⟨place, by rw [Except.ok.inj h]⟩

/-- A file that is read is the text that its bytes encode, with unified line ends. -/
lemma exists_of_readSource {file : SourceFile} (h : w.readSource path = .ok file) :
    ∃ place raw, OpensText w path place raw ∧
      file = .ofContents (unifyNewlines raw) (some path) := by
  rw [Workspace.readSource] at h
  cases hread : w.readBytes path with
  | error e =>
    rw [hread] at h
    cases h
  | ok bytes =>
    obtain ⟨place, hopen⟩ := openFile_of_readBytes hread
    rw [hread] at h
    cases hdecode : decode bytes with
    | error e => simp [hdecode, bind, Except.bind] at h
    | ok raw =>
      simp only [hdecode, bind, Except.bind, pure, Except.pure, Except.ok.injEq] at h
      have hbytes : bytes = encode raw := (encode_of_decode hdecode).symm
      exact ⟨place, raw, ⟨hbytes ▸ hopen, hbytes ▸ hdecode⟩, h.symm⟩

namespace Workspace

lemma overwrite_of_locate (h : w.tree.locate w.cwd (parse path) = .ok place) (bytes : List UInt8) :
    w.overwrite path bytes = { w with tree := w.tree.overwrite place bytes } := by
  rw [overwrite, h]

lemma breakOff_of_none (h : w.stored? path = none) (contents : List Char) :
    w.breakOff path contents = w := by
  rw [breakOff, h]

lemma breakOff_of_some {stored : Nat} (h : w.stored? path = some stored) (contents : List Char) :
    w.breakOff path contents = w.overwrite path ((encode contents).take stored) := by
  rw [breakOff, h]

/-- Storing a text does not change where texts can be stored. -/
@[simp] lemma refusal?_store (w : Workspace) (path path' : String)
    (contents : List Char) : (w.store path contents).refusal? path' = w.refusal? path' := by
  rw [store, overwrite]
  split <;> rfl

/-- Of two texts that are stored under one path the second stays. -/
lemma store_store (w : Workspace) (path : String) (contents contents' : List Char) :
    (w.store path contents).store path contents' = w.store path contents' := by
  cases hlocate : w.tree.locate w.cwd (parse path) with
  | error failure => simp only [store, overwrite, hlocate]
  | ok place =>
    have hafter : (w.tree.overwrite place (encode contents)).locate w.cwd (parse path) =
        .ok place := by rw [FileTree.locate_overwrite, hlocate]
    simp only [store, overwrite, hlocate, hafter, FileTree.overwrite_overwrite]

/-! ### Workspaces that agree -/

/-- Paths lead to the same places in both workspaces, and storing fails in the same way. The given
paths are read in the same way. -/
structure AgreesOn (w w₁ : Workspace) (paths : List String) : Prop where
  locate_eq : ∀ p, w₁.tree.locate w₁.cwd p = w.tree.locate w.cwd p
  refusal?_eq : ∀ path, w₁.refusal? path = w.refusal? path
  stored?_eq : ∀ path, w₁.stored? path = w.stored? path
  readSource_eq : ∀ path ∈ paths, w₁.readSource path = w.readSource path

namespace AgreesOn

lemma refl (w : Workspace) (paths : List String) : w.AgreesOn w paths :=
  ⟨fun _ => rfl, fun _ => rfl, fun _ => rfl, fun _ _ => rfl⟩

lemma trans (h : w.AgreesOn w₁ paths) (h' : w₁.AgreesOn w₂ paths) : w.AgreesOn w₂ paths :=
  ⟨fun p => (h'.locate_eq p).trans (h.locate_eq p),
    fun path => (h'.refusal?_eq path).trans (h.refusal?_eq path),
    fun path => (h'.stored?_eq path).trans (h.stored?_eq path),
    fun path hpath => (h'.readSource_eq path hpath).trans (h.readSource_eq path hpath)⟩

end AgreesOn

/-- The workspace `w₁` is `w` with the given bytes in the file at a place. -/
structure DiffersAt (w w₁ : Workspace) (place : Place) (bytes : List UInt8) : Prop where
  agreesOn : ∀ paths, (∀ path ∈ paths, w.tree.locate w.cwd (parse path) ≠ .ok place) →
    w.AgreesOn w₁ paths
  bytesAt?_eq : ∀ place', w₁.tree.bytesAt? place' =
    if place' = place then some bytes else w.tree.bytesAt? place'

namespace DiffersAt

lemma refl (h : w.tree.bytesAt? place = some bytes) : w.DiffersAt w place bytes := by
  refine ⟨fun paths _ => .refl w paths, ?_⟩
  intro place'
  split_ifs with hplace
  · rw [hplace, h]
  · rfl

lemma overwrite (h : w.tree.bytesAt? place = some old) (bytes : List UInt8) :
    w.DiffersAt { w with tree := w.tree.overwrite place bytes } place bytes := by
  refine ⟨fun paths hne => ⟨?_, fun _ => rfl, ?_, ?_⟩, ?_⟩
  · intro p
    exact FileTree.locate_overwrite ..
  · intro path
    simp only [stored?, FileTree.locate_overwrite]
  · intro path hpath
    simp only [readSource, readBytes, FileTree.openFile_overwrite_of_ne (hne path hpath)]
  · intro place'
    rw [FileTree.bytesAt?_overwrite, h]
    rfl

lemma locate_eq (h : w.DiffersAt w₁ place bytes) (p : Path) :
    w₁.tree.locate w₁.cwd p = w.tree.locate w.cwd p :=
  (h.agreesOn [] (by simp)).locate_eq p

/-- A path to another place opens as before. -/
lemma opensText_iff (h : w.DiffersAt w₁ place bytes) {place' : Place} (hne : place' ≠ place) :
    OpensText w₁ path place' raw ↔ OpensText w path place' raw := by
  have hopen : w₁.tree.openFile w₁.cwd (parse path) = .ok (place', encode raw) ↔
      w.tree.openFile w.cwd (parse path) = .ok (place', encode raw) := by
    rw [FileTree.openFile_eq_ok_iff, FileTree.openFile_eq_ok_iff, h.locate_eq, h.bytesAt?_eq,
      if_neg hne]
  exact ⟨fun h' => ⟨hopen.mp h'.open_eq, h'.decode_eq⟩,
    fun h' => ⟨hopen.mpr h'.open_eq, h'.decode_eq⟩⟩

end DiffersAt

end Workspace

end ParenLint
