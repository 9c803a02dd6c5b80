import Mathlib.Logic.Function.Iterate
import ParenLint.Proofs.Rule.Balance
import ParenLint.Proofs.Run.Agreement
import ParenLint.Proofs.Run.Workspace
import ParenLint.Proofs.Text.Newline

/-!
# The correction of one file

Each copy of the rule unwraps what is due in the text that the copy before it has left. Only the bytes
of the file itself change, and they do so exactly if a correction is reported. A correction that fails
does so at the first pass, and the file keeps its bytes unless the writing of this pass breaks off.
-/

namespace ParenLint

open ParenLint.Config ParenLint.Path ParenLint.Text

/-! ### The text -/

namespace SourceFile

/-- The file that a pass of the rule leaves. -/
def corrected (file : SourceFile) : SourceFile :=
  .ofContents (unwrapAll (dueMatches file) file.contents) file.path

/-- The corrections that a pass of the rule makes. -/
def corrections (file : SourceFile) : List Correction :=
  (dueMatches file).reverse.map fun m => controlStatement.correction (file.location m.start)

/-- The corrections that passes make, each in the file that the one before it leaves. -/
def correctionsBy : Nat → SourceFile → List Correction
  | 0, _ => []
  | n + 1, file => file.corrections ++ correctionsBy n file.corrected

variable {file : SourceFile} {text : List Char} {path : Option String} {n : Nat} {c : Correction}

lemma corrections_eq_nil_iff : file.corrections = [] ↔ dueMatches file = [] := by
  simp [corrections]

lemma corrected_of_eq_nil (h : dueMatches (.ofContents text path) = []) :
    (ofContents text path).corrected = ofContents text path := by
  rw [corrected, h]
  rfl

/-- Where nothing is due, passes change nothing. -/
lemma iterate_corrected_of_eq_nil (h : dueMatches (.ofContents text path) = []) (n : Nat) :
    corrected^[n] (ofContents text path) = ofContents text path :=
  Function.iterate_fixed (corrected_of_eq_nil h) n

lemma correctionsBy_of_eq_nil (h : dueMatches (.ofContents text path) = []) (n : Nat) :
    (ofContents text path).correctionsBy n = [] := by
  induction n with
  | zero => rfl
  | succ n ih => rw [correctionsBy, corrected_of_eq_nil h, ih, corrections_eq_nil_iff.mpr h]; rfl

/-- Passes correct something if the first of them does. -/
lemma correctionsBy_eq_nil_iff :
    (ofContents text path).correctionsBy n = [] ↔
      n = 0 ∨ dueMatches (.ofContents text path) = [] := by
  constructor
  · intro h
    cases n with
    | zero => exact .inl rfl
    | succ n => exact .inr (corrections_eq_nil_iff.mp (List.append_eq_nil_iff.mp h).1)
  · rintro (rfl | h)
    · rfl
    · exact correctionsBy_of_eq_nil h n

lemma file_of_mem_correctionsBy (h : c ∈ file.correctionsBy n) : c.location.file = file.path := by
  induction n generalizing file with
  | zero => cases h
  | succ n ih =>
    rcases List.mem_append.mp h with h | h
    · obtain ⟨m, -, rfl⟩ := List.mem_map.mp h
      rfl
    · have hpath : c.location.file = file.corrected.path := ih h
      exact hpath

/-- Each correction takes one opening parenthesis out of the text. -/
lemma count_iterate_corrected (n : Nat) (file : SourceFile) :
    (corrected^[n] file).contents.count '(' + (file.correctionsBy n).length =
      file.contents.count '(' := by
  induction n generalizing file with
  | zero => rfl
  | succ n ih =>
    have hpass : file.corrected.contents.count '(' + (dueMatches file).length =
        file.contents.count '(' := (count_unwrapAll_rewritten file.contents).1
    have hrest := ih file.corrected
    simp only [Function.iterate_succ_apply, correctionsBy, corrections, List.length_append,
      List.length_map, List.length_reverse]
    omega

end SourceFile

/-! ### The passes -/

section Passes

variable {path : String} {p : FileProgress} {n : Nat}

/-- A pass that has something to unwrap fails if the file cannot be stored. -/
lemma correctStep_of_refusal {e : WriteFailure} (hrefusal : p.workspace.refusal? path = some e)
    (h : dueMatches p.file ≠ []) : correctStep path p = .error e := by
  have hrun : (correctOnce p.file (some e)).outcome = .error e := (correct_of_ne_nil h).2
  simp only [correctStep, hrefusal, hrun]

lemma correctPasses_of_eq_nil (h : dueMatches p.file = []) (n : Nat) :
    correctPasses path n p = (p, .ok ()) := by
  induction n with
  | zero => rfl
  | succ n ih => simp only [correctPasses, correctStep_of_eq_nil path h, ih]

/-- The first pass fails if something is due and the file cannot be stored. -/
lemma correctPasses_of_refusal {e : WriteFailure} (hrefusal : p.workspace.refusal? path = some e)
    (h : dueMatches p.file ≠ []) (hn : n ≠ 0) :
    correctPasses path n p = (p.breakOff path, .error e) := by
  obtain ⟨n, rfl⟩ := Nat.exists_eq_succ_of_ne_zero hn
  simp only [correctPasses, correctStep_of_refusal hrefusal h]

/-- It breaks off in the text that it leaves of the file. -/
lemma workspace_breakOff (h : dueMatches p.file ≠ []) :
    (p.breakOff path).workspace = p.workspace.breakOff path p.file.corrected.contents := by
  have hrun : (correctOnce p.file (p.workspace.refusal? path)).written =
      [p.file.corrected.contents] := (correct_of_ne_nil h).1
  simp only [FileProgress.breakOff, hrun, List.foldl_cons, List.foldl_nil]

/-- Passes over a file that can be stored come to their end. They store the text that the last of
them leaves, if they correct anything. -/
lemma exists_correctPasses_eq {text : List Char} {name : Option String}
    (hstore : p.workspace.refusal? path = none) (hfile : p.file = .ofContents text name) :
    ∃ q, correctPasses path n p = (q, .ok ()) ∧
      q.corrections = p.corrections ++ p.file.correctionsBy n ∧
      q.workspace = if p.file.correctionsBy n = [] then p.workspace
        else p.workspace.store path (SourceFile.corrected^[n] p.file).contents := by
  induction n generalizing p text name with
  | zero => exact ⟨p, rfl, (List.append_nil _).symm, (if_pos rfl).symm⟩
  | succ n ih =>
    by_cases hdue : dueMatches p.file = []
    · have hnone : p.file.correctionsBy (n + 1) = [] := by
        rw [hfile] at hdue ⊢
        exact SourceFile.correctionsBy_of_eq_nil hdue _
      rw [hnone, if_pos rfl]
      exact ⟨p, correctPasses_of_eq_nil hdue _, (List.append_nil _).symm, rfl⟩
    · have hcorrections : p.file.corrections ≠ [] := mt SourceFile.corrections_eq_nil_iff.mp hdue
      have hstore' : (p.unwrapped path).workspace.refusal? path = none := by
        simpa [FileProgress.unwrapped] using hstore
      obtain ⟨q, hpasses, hfound, hworkspace⟩ := ih hstore' rfl
      have hnext : (p.unwrapped path).file = p.file.corrected := rfl
      have hstored : (p.unwrapped path).workspace =
          p.workspace.store path p.file.corrected.contents := rfl
      have hmade : (p.unwrapped path).corrections = p.corrections ++ p.file.corrections := rfl
      refine ⟨q, ?_, ?_, ?_⟩
      · simp only [correctPasses, correctStep_of_ne_nil hstore hdue, hpasses]
      · rw [hfound, hmade, hnext, List.append_assoc]
        rfl
      · have hsome : p.file.correctionsBy (n + 1) ≠ [] := by
          simp [SourceFile.correctionsBy, hcorrections]
        rw [hworkspace, if_neg hsome, hnext, hstored, Workspace.store_store,
          Function.iterate_succ_apply]
        split_ifs with hrest
        · rcases SourceFile.correctionsBy_eq_nil_iff.mp hrest with rfl | hdue'
          · rfl
          · rw [SourceFile.corrected, SourceFile.iterate_corrected_of_eq_nil hdue']
        · rfl

end Passes

/-! ### The bytes -/

/-- A file that was opened: the path to it, its place and the text that its bytes encode. -/
structure OpenedFile where
  path : String
  place : Place
  raw : List Char

namespace OpenedFile

/-- The source file that is read. -/
def source (f : OpenedFile) : SourceFile := .ofContents (unifyNewlines f.raw) (some f.path)

/-- The text that passes leave: the one that was opened, or else what was read of it and corrected. -/
def left (n : Nat) (f : OpenedFile) : List Char :=
  if f.source.correctionsBy n = [] then f.raw else (SourceFile.corrected^[n] f.source).contents

/-- Reading a text keeps its parentheses. -/
lemma count_source (f : OpenedFile) : f.source.contents.count '(' = f.raw.count '(' :=
  count_unifyNewlines (by decide) (by decide) f.raw

/-- What passes leave has fewer opening parentheses if they correct something. -/
lemma count_encode_left_lt {f : OpenedFile} {n : Nat} (h : f.source.correctionsBy n ≠ []) :
    (encode (f.left n)).count (UInt8.ofNat '('.toNat) < f.raw.count '(' := by
  have hparen : '('.toNat < 0x80 := by decide
  have hcount := SourceFile.count_iterate_corrected n f.source
  have hlength := List.length_pos_iff.mpr h
  rw [count_encode hparen, left, if_neg h, ← f.count_source]
  omega

/-- So has every beginning of the text that the first of them leaves. -/
lemma count_take_encode_corrected_lt {f : OpenedFile} (h : dueMatches f.source ≠ []) (n : Nat) :
    ((encode f.source.corrected.contents).take n).count (UInt8.ofNat '('.toNat) <
      f.raw.count '(' := by
  have hparen : '('.toNat < 0x80 := by decide
  have hcount : f.source.corrected.contents.count '(' + (dueMatches f.source).length =
      f.source.contents.count '(' := (count_unwrapAll_rewritten f.source.contents).1
  have hlength := List.length_pos_iff.mpr h
  refine ((List.take_sublist n _).count_le _).trans_lt ?_
  rw [count_encode hparen, ← f.count_source]
  omega

/-- The bytes change exactly if there is a correction, since each of them takes out a
parenthesis. -/
lemma encode_left_ne_iff {f : OpenedFile} {n : Nat} :
    encode (f.left n) ≠ encode f.raw ↔ f.source.correctionsBy n ≠ [] := by
  constructor
  · intro hne hnone
    exact hne (by rw [left, if_pos hnone])
  · intro hsome heq
    have hless := count_encode_left_lt hsome
    rw [heq, count_encode (by decide)] at hless
    exact hless.false

/-- Of what is reported of files, that which names a path is what is reported of the files with this
path. -/
lemma filter_flatMap_report (report : OpenedFile → List Correction)
    (hreport : ∀ f, ∀ c ∈ report f, c.location.file = some f.path) (files : List OpenedFile)
    (path : String) :
    (files.flatMap report).filter (fun c => c.location.file = some path) =
      (files.filter fun f => f.path = path).flatMap report := by
  induction files with
  | nil => rfl
  | cons f files ih =>
    have hfile := hreport f
    rw [List.flatMap_cons, List.filter_append, ih, List.filter_cons]
    by_cases hpath : f.path = path
    · have hall : (report f).filter (fun c => c.location.file = some path) = report f :=
        List.filter_eq_self.mpr fun c hc => decide_eq_true (hpath ▸ hfile c hc)
      rw [hall, if_pos (decide_eq_true hpath), List.flatMap_cons]
    · have hnone : (report f).filter (fun c => c.location.file = some path) = [] :=
        List.filter_eq_nil_iff.mpr fun c hc => by simpa [hfile c hc] using hpath
      rw [hnone, List.nil_append, if_neg (by simpa using hpath)]

/-- Of files with different paths one alone has the path of a file. -/
lemma filter_path_eq_singleton {files : List OpenedFile} {f : OpenedFile} (hf : f ∈ files)
    (hpaths : (files.map OpenedFile.path).Nodup) :
    files.filter (fun g => g.path = f.path) = [f] := by
  obtain ⟨before, after, rfl⟩ := List.append_of_mem hf
  rw [List.map_append, List.map_cons, List.nodup_middle, ← List.map_append] at hpaths
  have hothers : ∀ g ∈ before ++ after, ¬ decide (g.path = f.path) = true := by
    intro g hg heq
    exact (List.nodup_cons.mp hpaths).1 (of_decide_eq_true heq ▸ List.mem_map_of_mem hg)
  obtain ⟨hbefore, hafter⟩ := List.forall_mem_append.mp hothers
  rw [List.filter_append, List.filter_eq_nil_iff.mpr hbefore, List.nil_append, List.filter_cons,
    if_pos (decide_eq_true rfl), List.filter_eq_nil_iff.mpr hafter]

end OpenedFile

section Path

variable {settings : Settings} {copies n : Nat} {w : Workspace} {path : String} {e : RunError}

/-- Why the correction of a file by copies of the rule fails, if it does: the file cannot be read, or
something is due in it and it cannot be stored. -/
def Workspace.failure? (w : Workspace) (copies : Nat) (path : String) : Option RunError :=
  match w.readSource path with
  | .error e => some (.read e)
  | .ok file =>
    if copies = 0 ∨ dueMatches file = [] then none else (w.refusal? path).map .write

/-- The workspace that a failing correction of the file at a path leaves. -/
inductive Workspace.Fails (w : Workspace) : String → RunError → Workspace → Prop
  /-- The file was not opened to be written, and nothing has changed. -/
  | kept {path : String} {e : RunError} (h : ∀ failure, e = .write failure → w.stored? path = none) :
      Fails w path e w
  /-- Writing the text that a pass leaves has broken off. -/
  | brokenOff {f : OpenedFile} {failure : WriteFailure} {stored : Nat} {w₁ : Workspace}
      (hstored : w.stored? f.path = some stored) (hread : w.readSource f.path = .ok f.source)
      (hopen : OpensText w f.path f.place f.raw) (hdue : dueMatches f.source ≠ [])
      (hdiffers : w.DiffersAt w₁ f.place ((encode f.source.corrected.contents).take stored)) :
      Fails w f.path (.write failure) w₁

/-- A text that is due in a file and cannot be stored is broken off, or it is not begun. -/
lemma fails_breakOff {f : OpenedFile} (hread : w.readSource f.path = .ok f.source)
    (hopen : OpensText w f.path f.place f.raw) (hdue : dueMatches f.source ≠ [])
    (failure : WriteFailure) :
    w.Fails f.path (.write failure) (w.breakOff f.path f.source.corrected.contents) := by
  cases hstored : w.stored? f.path with
  | none =>
    rw [Workspace.breakOff_of_none hstored]
    exact .kept fun _ _ => hstored
  | some stored =>
    rw [Workspace.breakOff_of_some hstored, Workspace.overwrite_of_locate hopen.locate_eq]
    exact .brokenOff hstored hread hopen hdue (.overwrite hopen.bytesAt?_eq _)

/-- A correction that fails reports why, and leaves the workspace as it was unless it fails in the
middle of writing. -/
lemma correctPath_of_failure (h : w.failure? (enabledCopies settings copies) path = some e) :
    (correctPath settings copies w path).outcome = .error e ∧
      w.Fails path e (correctPath settings copies w path).workspace := by
  rw [Workspace.failure?] at h
  cases hread : w.readSource path with
  | error e' =>
    rw [hread] at h
    obtain rfl := Option.some.inj h
    simp only [correctPath, hread, true_and]
    exact .kept fun _ hwrite => nomatch hwrite
  | ok file =>
    simp only [hread] at h
    split_ifs at h with hdue
    obtain ⟨hcopies, hdue⟩ := not_or.mp hdue
    obtain ⟨failure, hrefusal, rfl⟩ := Option.map_eq_some_iff.mp h
    have hpasses : correctPasses path (enabledCopies settings copies) ⟨w, file, [], []⟩ =
        (FileProgress.breakOff path ⟨w, file, [], []⟩, .error failure) :=
      correctPasses_of_refusal hrefusal hdue hcopies
    have hworkspace : (FileProgress.breakOff path ⟨w, file, [], []⟩).workspace =
        w.breakOff path file.corrected.contents :=
      workspace_breakOff (p := ⟨w, file, [], []⟩) hdue
    simp only [correctPath, hread, hpasses, hworkspace, true_and]
    obtain ⟨place, raw, hopen, rfl⟩ := exists_of_readSource hread
    exact fails_breakOff (f := ⟨path, place, raw⟩) hread hopen hdue failure

/-- The correction of the file at a path fails with an error in the middle of writing the file at a
place. -/
def Workspace.BreaksOffAt (w : Workspace) (path : String) (e : RunError) (place : Place) : Prop :=
  w.tree.locate w.cwd (parse path) = .ok place ∧
    ∃ failure, e = .write failure ∧ w.stored? path ≠ none

lemma Workspace.AgreesOn.breaksOffAt_iff {w₁ : Workspace} {paths : List String} {place : Place}
    (h : w.AgreesOn w₁ paths) : w₁.BreaksOffAt path e place ↔ w.BreaksOffAt path e place := by
  simp only [Workspace.BreaksOffAt, h.locate_eq, h.stored?_eq]

/-- A text that is broken off stands in the file as far as it was stored. -/
lemma Workspace.Fails.bytesAt?_of_breaksOffAt {w₁ : Workspace} {place : Place} {stored : Nat}
    (h : w.Fails path e w₁) (hbreaks : w.BreaksOffAt path e place)
    (hstored : w.stored? path = some stored) :
    ∃ file, w.readSource path = .ok file ∧
      w₁.tree.bytesAt? place = some ((encode file.corrected.contents).take stored) := by
  obtain ⟨hplace, failure, rfl, -⟩ := hbreaks
  cases h with
  | kept h =>
    rw [h failure rfl] at hstored
    cases hstored
  | brokenOff hstored' hread hopen _ hdiffers =>
    obtain rfl := Option.some.inj (hstored'.symm.trans hstored)
    obtain rfl := Except.ok.inj (hopen.locate_eq.symm.trans hplace)
    exact ⟨_, hread, by rw [hdiffers.bytesAt?_eq, if_pos rfl]⟩

/-- Otherwise its corrections are reported, and its own bytes become those of the text that is
left. -/
lemma exists_correctPath_eq (h : w.failure? (enabledCopies settings copies) path = none) :
    ∃ f : OpenedFile, f.path = path ∧ OpensText w f.path f.place f.raw ∧
      (correctPath settings copies w path).outcome =
        .ok (f.source.correctionsBy (enabledCopies settings copies)) ∧
      w.DiffersAt (correctPath settings copies w path).workspace f.place
        (encode (f.left (enabledCopies settings copies))) := by
  rw [Workspace.failure?] at h
  cases hread : w.readSource path with
  | error e => simp [hread] at h
  | ok file =>
    obtain ⟨place, raw, hopen, rfl⟩ := exists_of_readSource hread
    generalize hf : OpenedFile.mk path place raw = f
    have hsource : SourceFile.ofContents (unifyNewlines raw) (some path) = f.source := by
      rw [← hf]
      rfl
    have hbytes : w.tree.bytesAt? f.place = some (encode f.raw) := by
      rw [← hf]
      exact hopen.bytesAt?_eq
    simp only [hread, hsource] at h
    refine ⟨f, by rw [← hf], by rw [← hf]; exact hopen, ?_⟩
    rw [correctPath, hread, hsource]
    generalize enabledCopies settings copies = n at h ⊢
    by_cases hdue : n = 0 ∨ dueMatches f.source = []
    · have hnone : f.source.correctionsBy n = [] :=
        SourceFile.correctionsBy_eq_nil_iff.mpr hdue
      have hpasses : correctPasses path n ⟨w, f.source, [], []⟩ =
          (⟨w, f.source, [], []⟩, .ok ()) := by
        rcases hdue with rfl | hdue
        · rfl
        · exact correctPasses_of_eq_nil (p := ⟨w, f.source, [], []⟩) hdue n
      simp only [hpasses, hnone, true_and]
      rw [OpenedFile.left, if_pos hnone]
      exact .refl hbytes
    · have hsome : f.source.correctionsBy n ≠ [] := mt SourceFile.correctionsBy_eq_nil_iff.mp hdue
      rw [if_neg hdue, Option.map_eq_none_iff] at h
      obtain ⟨q, hpasses, hcorrections, hworkspace⟩ := exists_correctPasses_eq
        (p := ⟨w, f.source, [], []⟩) (n := n) h rfl
      rw [if_neg hsome, Workspace.store, Workspace.overwrite_of_locate hopen.locate_eq] at hworkspace
      simp only [hpasses, hcorrections, hworkspace, List.nil_append, true_and]
      rw [OpenedFile.left, if_neg hsome, ← hf]
      exact .overwrite hopen.bytesAt?_eq _

end Path

end ParenLint
