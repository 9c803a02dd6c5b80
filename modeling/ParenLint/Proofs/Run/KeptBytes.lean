import ParenLint.Proofs.Run.CorrectedFile

/-!
# Files that keep their bytes

Every correction takes an opening parenthesis out of the file that it names, and so does a write that
breaks off there; nothing else changes the bytes of a file. The number of its opening parentheses
never grows in a run, so that what is taken out once is not put back by a later path to the same
file.
-/

namespace ParenLint

open ParenLint.Config ParenLint.Path ParenLint.Text

variable {settings : Settings} {copies : Nat} {w w₁ w₂ : Workspace} {path : String}
  {paths : List String} {place : Place} {touched touched' : Prop} {e : RunError}
  {found : List (List Correction)}

/-- A correction names the file at a place. -/
def Correction.Names (w : Workspace) (c : Correction) (place : Place) : Prop :=
  ∃ path, c.location.file = some path ∧ w.tree.locate w.cwd (parse path) = .ok place

lemma Workspace.AgreesOn.names_iff (h : w.AgreesOn w₁ paths) {c : Correction} :
    c.Names w₁ place ↔ c.Names w place := by
  simp only [Correction.Names, h.locate_eq]

/-- The number of opening parentheses among the bytes at a place. -/
def Workspace.parentheses (w : Workspace) (place : Place) : Nat :=
  ((w.tree.bytesAt? place).getD []).count (UInt8.ofNat '('.toNat)

lemma parentheses_of_bytesAt? {bytes : List UInt8} (h : w.tree.bytesAt? place = some bytes) :
    w.parentheses place = bytes.count (UInt8.ofNat '('.toNat) := by
  rw [Workspace.parentheses, h, Option.getD_some]

/-! ### One change -/

/-- The file at a place keeps its bytes unless it is touched, and then it has fewer opening
parentheses. -/
structure Workspace.Lowers (w w₁ : Workspace) (place : Place) (touched : Prop) : Prop where
  kept : ¬touched → w₁.tree.bytesAt? place = w.tree.bytesAt? place
  lost : touched → w₁.parentheses place < w.parentheses place

namespace Workspace.Lowers

lemma refl (h : ¬touched) : w.Lowers w place touched := ⟨fun _ => rfl, fun h' => absurd h' h⟩

lemma parentheses_le (h : w.Lowers w₁ place touched) :
    w₁.parentheses place ≤ w.parentheses place := by
  by_cases htouched : touched
  · exact (h.lost htouched).le
  · rw [Workspace.parentheses, h.kept htouched, Workspace.parentheses]

/-- A file that two changes lead to is touched by one of them. -/
lemma trans (h : w.Lowers w₁ place touched) (h' : w₁.Lowers w₂ place touched') :
    w.Lowers w₂ place (touched ∨ touched') := by
  constructor
  · intro hnone
    obtain ⟨hfirst, hsecond⟩ := not_or.mp hnone
    rw [h'.kept hsecond, h.kept hfirst]
  · rintro (hfirst | hsecond)
    · exact h'.parentheses_le.trans_lt (h.lost hfirst)
    · exact (h'.lost hsecond).trans_le h.parentheses_le

lemma congr (h : w.Lowers w₁ place touched) (hiff : touched ↔ touched') :
    w.Lowers w₁ place touched' := by
  rwa [← propext hiff]

/-- The bytes stay exactly if the file is not touched. -/
lemma bytesAt?_eq_iff (h : w.Lowers w₁ place touched) :
    w₁.tree.bytesAt? place = w.tree.bytesAt? place ↔ ¬touched := by
  refine ⟨fun heq htouched => ?_, h.kept⟩
  have hless := h.lost htouched
  rw [Workspace.parentheses, Workspace.parentheses, heq] at hless
  exact hless.false

end Workspace.Lowers

/-- Bytes with fewer opening parentheses in an opened file. -/
lemma lowers_of_differsAt {f : OpenedFile} {bytes : List UInt8}
    (hopen : OpensText w f.path f.place f.raw) (hdiffers : w.DiffersAt w₁ f.place bytes)
    (hkept : ¬touched → bytes = encode f.raw)
    (hlost : touched → bytes.count (UInt8.ofNat '('.toNat) < f.raw.count '(') (place : Place) :
    w.Lowers w₁ place (f.place = place ∧ touched) := by
  have hbytes := hdiffers.bytesAt?_eq place
  split_ifs at hbytes with hplace
  · subst hplace
    simp only [true_and]
    constructor
    · intro hnot
      rw [hbytes, hkept hnot, hopen.bytesAt?_eq]
    · intro htouched
      have hparen : '('.toNat < 0x80 := by decide
      rw [parentheses_of_bytesAt? hbytes, parentheses_of_bytesAt? hopen.bytesAt?_eq,
        count_encode hparen]
      exact hlost htouched
  · exact ⟨fun _ => hbytes, fun h => absurd h.1.symm hplace⟩

/-! ### One file -/

/-- A correction that does not fail touches the file that its corrections name. -/
lemma exists_lowers_correctPath (h : w.failure? (enabledCopies settings copies) path = none) :
    ∃ cs, (correctPath settings copies w path).outcome = .ok cs ∧
      w.AgreesOn (correctPath settings copies w path).workspace [] ∧
      ∀ place, w.Lowers (correctPath settings copies w path).workspace place
        (∃ c ∈ cs, c.Names w place) := by
  obtain ⟨f, rfl, hopen, houtcome, hdiffers⟩ := exists_correctPath_eq h
  refine ⟨_, houtcome, hdiffers.agreesOn [] (by simp), fun place => ?_⟩
  refine (lowers_of_differsAt hopen hdiffers ?_ OpenedFile.count_encode_left_lt place).congr ?_
  · intro hnone
    rw [OpenedFile.left, if_pos (not_not.mp hnone)]
  · constructor
    · rintro ⟨rfl, hsome⟩
      obtain ⟨c, hc⟩ := List.exists_mem_of_ne_nil _ hsome
      exact ⟨c, hc, f.path, SourceFile.file_of_mem_correctionsBy hc, hopen.locate_eq⟩
    · rintro ⟨c, hc, path, hpath, hplace⟩
      have hfile : c.location.file = some f.path := SourceFile.file_of_mem_correctionsBy hc
      obtain rfl : f.path = path := Option.some.inj (hfile.symm.trans hpath)
      exact ⟨Except.ok.inj (hopen.locate_eq.symm.trans hplace), List.ne_nil_of_mem hc⟩

/-- A correction that fails touches the file if writing it breaks off. -/
lemma Workspace.Fails.lowers (h : w.Fails path e w₁) (place : Place) :
    w.Lowers w₁ place (w.BreaksOffAt path e place) := by
  cases h with
  | kept h =>
    refine .refl ?_
    rintro ⟨-, failure, hwrite, hstored⟩
    exact hstored (h failure hwrite)
  | brokenOff hstored _ hopen hdue hdiffers =>
    have hlowers : w.Lowers w₁ place (_ ∧ True) := lowers_of_differsAt hopen hdiffers
      (absurd trivial) (fun _ => OpenedFile.count_take_encode_corrected_lt hdue _) place
    refine hlowers.congr ?_
    simp [Workspace.BreaksOffAt, hopen.locate_eq, hstored]

/-! ### A run -/

/-- A run over paths that comes to its end touches the files that its corrections name. -/
lemma lowers_correctPaths (hrun : (correctPaths settings copies w paths).2.2 = .ok found) :
    w.AgreesOn (correctPaths settings copies w paths).2.1 [] ∧
      ∀ place, w.Lowers (correctPaths settings copies w paths).2.1 place
        (∃ c ∈ found.flatten, c.Names w place) := by
  induction paths generalizing w found with
  | nil =>
    obtain rfl := Except.ok.inj hrun
    exact ⟨.refl w [], fun place => .refl (by simp)⟩
  | cons path paths ih =>
    cases hfailure : w.failure? (enabledCopies settings copies) path with
    | some e =>
      obtain ⟨houtcome, -⟩ := correctPath_of_failure hfailure
      simp [correctPaths, houtcome] at hrun
    | none =>
      obtain ⟨cs, houtcome, hagrees, hlowers⟩ := exists_lowers_correctPath hfailure
      cases hrest : (correctPaths settings copies (correctPath settings copies w path).workspace
        paths).2.2 with
      | error e => simp [correctPaths, houtcome, hrest, Except.map] at hrun
      | ok found' =>
        simp only [correctPaths, houtcome, hrest, Except.map, Except.ok.injEq] at hrun ⊢
        subst hrun
        obtain ⟨hagrees', hlowers'⟩ := ih hrest
        refine ⟨hagrees.trans hagrees', fun place => ?_⟩
        refine ((hlowers place).trans (hlowers' place)).congr ?_
        simp only [hagrees.names_iff, List.flatten_cons, List.mem_append, or_and_right, exists_or]

/-- A run over paths that ends early has gone through all paths before the one whose correction
fails. -/
lemma exists_fails_of_correctPaths (hrun : (correctPaths settings copies w paths).2.2 = .error e) :
    ∃ before path after found, paths = before ++ path :: after ∧
      (correctPaths settings copies w before).2.2 = .ok found ∧
      (correctPaths settings copies w before).2.1.failure? (enabledCopies settings copies) path =
        some e ∧
      (correctPaths settings copies w before).2.1.Fails path e
        (correctPaths settings copies w paths).2.1 := by
  induction paths generalizing w with
  | nil => cases hrun
  | cons path paths ih =>
    cases hfailure : w.failure? (enabledCopies settings copies) path with
    | some e' =>
      obtain ⟨houtcome, hfails⟩ := correctPath_of_failure hfailure
      simp only [correctPaths, houtcome, Except.error.injEq] at hrun
      subst hrun
      refine ⟨[], path, paths, [], rfl, rfl, hfailure, ?_⟩
      simpa only [correctPaths, houtcome] using hfails
    | none =>
      obtain ⟨cs, houtcome, -⟩ := exists_lowers_correctPath hfailure
      simp only [correctPaths, houtcome] at hrun
      cases hrest : (correctPaths settings copies (correctPath settings copies w path).workspace
        paths).2.2 with
      | ok found => simp [hrest, Except.map] at hrun
      | error e' =>
        simp only [hrest, Except.map, Except.error.injEq] at hrun
        subst hrun
        obtain ⟨before, path', after, found, rfl, hbefore, hfailure', hfails⟩ := ih hrest
        refine ⟨path :: before, path', after, cs :: found, rfl, ?_, ?_, ?_⟩
        · simp only [correctPaths, houtcome, hbefore, Except.map]
        · simpa only [correctPaths, houtcome] using hfailure'
        · simpa only [List.cons_append, correctPaths, houtcome] using hfails

/-- However often the paths lead to a file, it holds its bytes as before exactly if no correction
names it and no write breaks off in it. -/
theorem bytesAt?_correctPaths_eq_iff
    (hrun : (correctPaths settings copies w paths).2.2 = .error e) :
    ∃ before path after found, paths = before ++ path :: after ∧
      (correctPaths settings copies w before).2.2 = .ok found ∧
      (correctPaths settings copies w before).2.1.failure? (enabledCopies settings copies) path =
        some e ∧
      ∀ place,
        (correctPaths settings copies w paths).2.1.tree.bytesAt? place = w.tree.bytesAt? place ↔
          (∀ c ∈ found.flatten, ¬c.Names w place) ∧ ¬w.BreaksOffAt path e place := by
  obtain ⟨before, path, after, found, hpaths, hbefore, hfailure, hfails⟩ :=
    exists_fails_of_correctPaths hrun
  refine ⟨before, path, after, found, hpaths, hbefore, hfailure, fun place => ?_⟩
  obtain ⟨hagrees, hlowers⟩ := lowers_correctPaths hbefore
  rw [((hlowers place).trans (hfails.lowers place)).bytesAt?_eq_iff, hagrees.breaksOffAt_iff, not_or]
  simp only [not_exists, not_and]

end ParenLint
