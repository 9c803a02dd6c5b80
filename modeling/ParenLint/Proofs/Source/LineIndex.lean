import Mathlib.Data.Prod.Lex
import ParenLint.Proofs.Source.Position
import ParenLint.Proofs.Swift.Classification

/-!
# The line index of a file

Every write that succeeds renews the starts of the lines, and one that fails leaves them with the
text they belong to. So at any time the lines that have begun by an offset are those of the text
before it, and a location names its offset: line and character give it back, and they are ordered as
the offsets are.
-/

namespace ParenLint

open ParenLint.Swift

attribute [local simp] lineStartsAfter

/-! ### The lines that have begun -/

lemma lt_of_mem_lineStartsAfter {offset s : Nat} {cs : List Char}
    (hs : s ∈ lineStartsAfter offset cs) : offset < s := by
  induction cs generalizing offset with
  | nil => cases hs
  | cons c cs ih =>
    rw [lineStartsAfter] at hs
    split_ifs at hs
    · rcases List.mem_cons.mp hs with rfl | hs
      · exact Nat.lt_succ_self offset
      · exact Nat.lt_of_succ_lt (ih hs)
    · exact Nat.lt_of_succ_lt (ih hs)

lemma pairwise_lineStartsAfter (offset : Nat) (cs : List Char) :
    (lineStartsAfter offset cs).Pairwise (· < ·) := by
  induction cs generalizing offset with
  | nil => exact .nil
  | cons c cs ih =>
    rw [lineStartsAfter]
    split_ifs
    · exact .cons (fun s hs => lt_of_mem_lineStartsAfter hs) (ih _)
    · exact ih _

/-- The lines start one behind the other. -/
lemma pairwise_lineStarts (contents : List Char) : (lineStarts contents).Pairwise (· < ·) :=
  .cons (fun _ hs => lt_of_mem_lineStartsAfter hs) (pairwise_lineStartsAfter 0 contents)

lemma length_lineStartsAfter (offset : Nat) (cs : List Char) :
    (lineStartsAfter offset cs).length = cs.count '\n' := by
  induction cs generalizing offset with
  | nil => rfl
  | cons c cs ih =>
    rw [lineStartsAfter]
    split_ifs with hc
    · rw [List.length_cons, ih, hc, List.count_cons_self]
    · rw [ih, List.count_cons_of_ne hc]

lemma takeWhile_lineStartsAfter (offset n : Nat) (cs : List Char) :
    (lineStartsAfter offset cs).takeWhile (fun s : Nat => (s : Int) ≤ (offset + n : Nat)) =
      lineStartsAfter offset (cs.take n) := by
  induction cs generalizing offset n with
  | nil => simp
  | cons c cs ih =>
    cases n with
    | zero =>
      rw [List.take_zero, lineStartsAfter, List.takeWhile_eq_nil_iff]
      intro hpos hle
      have hlt := lt_of_mem_lineStartsAfter (List.get_mem _ ⟨0, hpos⟩)
      have hle := of_decide_eq_true hle
      omega
    | succ n =>
      have hrest := ih (offset + 1) n
      rw [Nat.add_right_comm, Nat.add_assoc] at hrest
      have hbegun : decide (((offset + 1 : Nat) : Int) ≤ (offset + (n + 1) : Nat)) = true :=
        decide_eq_true (by omega)
      rw [List.take_succ_cons, lineStartsAfter, lineStartsAfter]
      split_ifs
      · rw [List.takeWhile_cons, if_pos hbegun, hrest]
      · exact hrest

/-- The lines that have begun by an offset are those of the text before it. -/
lemma takeWhile_lineStarts (contents : List Char) (offset : Nat) :
    (lineStarts contents).takeWhile (fun s : Nat => (s : Int) ≤ (offset : Nat)) =
      lineStarts (contents.take offset) := by
  have hrest := takeWhile_lineStartsAfter 0 offset contents
  rw [Nat.zero_add] at hrest
  have hbegun : decide (((0 : Nat) : Int) ≤ (offset : Nat)) = true := decide_eq_true (by omega)
  rw [lineStarts, List.takeWhile_cons, if_pos hbegun, hrest, lineStarts]

/-- Behind the lines that have begun, none has. -/
lemma lt_of_mem_dropWhile {starts : List Nat} (hstarts : starts.Pairwise (· < ·)) {offset : Int}
    {s : Nat} (hs : s ∈ starts.dropWhile fun s : Nat => (s : Int) ≤ offset) : offset < s := by
  have hhead := List.head?_dropWhile_not (fun s : Nat => decide ((s : Int) ≤ offset)) starts
  have hsorted := hstarts.sublist (List.dropWhile_sublist fun s : Nat => (s : Int) ≤ offset)
  cases hlater : starts.dropWhile fun s : Nat => (s : Int) ≤ offset with
  | nil =>
    rw [hlater] at hs
    cases hs
  | cons first later =>
    rw [hlater] at hs hhead hsorted
    have hfirst : offset < (first : Int) := by simpa using hhead
    rcases List.mem_cons.mp hs with rfl | hs
    · exact hfirst
    · have hgt := (List.pairwise_cons.mp hsorted).1 s hs
      omega

/-- Halving among the starts of the lines finds the first line that has not begun. -/
lemma firstWhere_eq_length_takeWhile {starts : List Nat} (hstarts : starts.Pairwise (· < ·))
    (offset : Int) :
    firstWhere (fun i => starts[i]?.any fun s : Nat => offset < s) 0 starts.length =
      (starts.takeWhile fun s : Nat => (s : Int) ≤ offset).length := by
  have hbegun : ∀ s ∈ starts.takeWhile fun s : Nat => (s : Int) ≤ offset, ¬ offset < s := by
    intro s hs
    have hle := List.mem_takeWhile_imp hs
    exact Int.not_lt.mpr (of_decide_eq_true hle)
  have hlater : ∀ s ∈ starts.dropWhile fun s : Nat => (s : Int) ≤ offset, offset < s :=
    fun s hs => lt_of_mem_dropWhile hstarts hs
  have hsplit := List.takeWhile_append_dropWhile (p := fun s : Nat => (s : Int) ≤ offset)
    (l := starts)
  generalize starts.takeWhile (fun s : Nat => (s : Int) ≤ offset) = begun at *
  generalize starts.dropWhile (fun s : Nat => (s : Int) ≤ offset) = later at *
  subst hsplit
  apply firstWhere_eq
  · simp
  · intro i hi
    rw [List.getElem?_append_left hi, List.getElem?_eq_getElem hi, Option.any_some,
      decide_eq_false_iff_not]
    exact hbegun _ (List.getElem_mem hi)
  · intro i hi hbound
    have hi' : i - begun.length < later.length := by
      rw [List.length_append] at hbound
      omega
    rw [List.getElem?_append_right hi, List.getElem?_eq_getElem hi', Option.any_some,
      decide_eq_true_eq]
    exact hlater _ (List.getElem_mem hi')

/-! ### Where a line starts -/

/-- The number of characters up to and including the `n`-th newline. -/
def behindNewlines : Nat → List Char → Nat
  | 0, _ => 0
  | _ + 1, [] => 0
  | n + 1, c :: cs => 1 + behindNewlines (if c = '\n' then n else n + 1) cs

attribute [local simp] behindNewlines

/-- The offset at which a line starts, the lines counted from one. -/
def startOfLine (contents : List Char) (line : Int) : Nat :=
  behindNewlines (line - 1).toNat contents

example : startOfLine "a\n\nbc".toList 3 = 3 := by decide

lemma behindNewlines_append {n : Nat} {a : List Char} (h : n ≤ a.count '\n') (b : List Char) :
    behindNewlines n (a ++ b) = behindNewlines n a := by
  induction a generalizing n with
  | nil =>
    obtain rfl := Nat.le_zero.mp h
    simp
  | cons c a ih =>
    cases n with
    | zero => simp
    | succ n =>
      rw [List.cons_append, behindNewlines, behindNewlines, ih]
      split_ifs with hc
      · rw [hc, List.count_cons_self] at h
        omega
      · rwa [List.count_cons_of_ne hc] at h

/-- The last line starts behind the last newline. -/
lemma getLast?_lineStartsAfter (offset : Nat) (cs : List Char) :
    (offset :: lineStartsAfter offset cs).getLast? =
      some (offset + behindNewlines (cs.count '\n') cs) := by
  induction cs generalizing offset with
  | nil => rfl
  | cons c cs ih =>
    have hrest := ih (offset + 1)
    rw [lineStartsAfter]
    split_ifs with hc
    · rw [List.getLast?_cons_cons, hrest, hc, List.count_cons_self, behindNewlines, if_pos rfl,
        Nat.add_assoc]
    · rw [List.count_cons_of_ne hc]
      cases hafter : lineStartsAfter (offset + 1) cs with
      | nil =>
        have hcount := length_lineStartsAfter (offset + 1) cs
        rw [hafter, List.length_nil] at hcount
        rw [← hcount]
        rfl
      | cons s starts =>
        obtain ⟨n, hn⟩ : ∃ n, cs.count '\n' = n + 1 :=
          ⟨starts.length, by rw [← length_lineStartsAfter (offset + 1) cs, hafter]; rfl⟩
        rw [hafter, List.getLast?_cons_cons] at hrest
        rw [List.getLast?_cons_cons, hrest, hn, behindNewlines, if_neg hc, Nat.add_assoc]

/-- An offset is on the line behind as many newlines as stand before it, and its character is
counted from where that line starts. -/
lemma positionIn_lineStarts (contents : List Char) (offset : Nat) :
    positionIn (lineStarts contents) offset =
      (((contents.take offset).count '\n' : Int) + 1,
        (offset : Int) - behindNewlines ((contents.take offset).count '\n') contents + 1) := by
  have hlast := getLast?_lineStartsAfter 0 (contents.take offset)
  have hlength := length_lineStartsAfter 0 (contents.take offset)
  have hsplit := behindNewlines_append (Nat.le_refl ((contents.take offset).count '\n'))
    (contents.drop offset)
  rw [List.take_append_drop] at hsplit
  rw [positionIn, takeWhile_lineStarts, hsplit]
  simp only [lineStarts, hlast, List.length_cons, hlength, Option.orElse_eq_orElse,
    Option.orElse_some, Option.getD_some, Nat.zero_add]
  rfl

/-- Behind whole lines, as many characters have been passed as are in them. -/
lemma behindNewlines_count {front : List Char} (h : ∀ c ∈ front.getLast?, c = '\n') :
    behindNewlines (front.count '\n') front = front.length := by
  induction front with
  | nil => rfl
  | cons c front ih =>
    have htail : ∀ d ∈ front.getLast?, d = '\n' := by
      intro d hd
      refine h d ?_
      rw [List.getLast?_cons, Option.mem_def.mp hd]
      rfl
    have hrest := ih htail
    by_cases hc : c = '\n'
    · rw [hc, List.count_cons_self, behindNewlines, if_pos rfl, hrest, List.length_cons,
        Nat.add_comm]
    · have hmem : '\n' ∈ front := by
        have hlast := h _ (List.getLast?_eq_some_getLast (List.cons_ne_nil c front))
        have hmem := List.getLast_mem (List.cons_ne_nil c front)
        rw [hlast] at hmem
        exact (List.mem_cons.mp hmem).resolve_left (Ne.symm hc)
      obtain ⟨n, hn⟩ :=
        Nat.exists_eq_add_one_of_ne_zero (Nat.ne_of_gt (List.count_pos_iff.mpr hmem))
      rw [List.count_cons_of_ne hc, hn, behindNewlines, if_neg hc, ← hn, hrest, List.length_cons,
        Nat.add_comm]

/-- An offset on the line behind whole lines is counted from the end of these. -/
lemma positionIn_behind_lines {front lead : List Char} (h : ∀ c ∈ front.getLast?, c = '\n')
    (hlead : '\n' ∉ lead) (rest : List Char) :
    positionIn (lineStarts (front ++ (lead ++ rest))) (front.length + lead.length : Nat) =
      ((front.count '\n' : Int) + 1, (lead.length : Int) + 1) := by
  have htake : (front ++ (lead ++ rest)).take (front.length + lead.length) = front ++ lead := by
    rw [← List.append_assoc, ← List.length_append, List.take_left]
  have hcount : (front ++ lead).count '\n' = front.count '\n' := by
    rw [List.count_append, List.count_eq_zero_of_not_mem hlead, Nat.add_zero]
  rw [positionIn_lineStarts, htake, hcount, behindNewlines_append (Nat.le_refl _),
    behindNewlines_count h, Prod.mk.injEq]
  refine ⟨rfl, ?_⟩
  push_cast
  omega

/-! ### Files that are written to -/

namespace SourceFile

/-- The starts of the lines are those of the text. -/
def IsIndexed (file : SourceFile) : Prop := file.lineStarts = ParenLint.lineStarts file.contents

/-- The file after an attempt to store a text, which leaves it as it was if it fails. -/
def afterWrite (file : SourceFile) (attempt : Option WriteFailure × List Char) : SourceFile :=
  match file.write attempt.1 attempt.2 with
  | .ok written => written
  | .error _ => file

/-- The file after one attempt after the other to store a text. -/
def afterWrites (file : SourceFile) (attempts : List (Option WriteFailure × List Char)) :
    SourceFile :=
  attempts.foldl afterWrite file

lemma isIndexed_ofContents (contents : List Char) (path : Option String) :
    (ofContents contents path).IsIndexed := rfl

lemma IsIndexed.afterWrite {file : SourceFile} (h : file.IsIndexed)
    (attempt : Option WriteFailure × List Char) : (file.afterWrite attempt).IsIndexed := by
  obtain ⟨failure, contents⟩ := attempt
  cases failure with
  | none => rfl
  | some e => exact h

lemma IsIndexed.afterWrites {file : SourceFile} (h : file.IsIndexed)
    (attempts : List (Option WriteFailure × List Char)) :
    (file.afterWrites attempts).IsIndexed := by
  induction attempts generalizing file with
  | nil => exact h
  | cons attempt attempts ih => exact ih (h.afterWrite attempt)

/-- Line and character of an offset, in lexicographic order. -/
def position (file : SourceFile) (offset : Nat) : Int ×ₗ Int :=
  toLex ((file.location offset).line, (file.location offset).character)

/-- A later offset has a later position, whatever the lines are taken to be. -/
lemma position_lt_of_lt (file : SourceFile) {a b : Nat} (hlt : a < b) :
    file.position a < file.position b := by
  rw [position, position, Prod.Lex.toLex_lt_toLex]
  exact positionIn_of_lt file.lineStarts (Int.ofNat_lt.mpr hlt)

lemma position_lt_iff (file : SourceFile) {a b : Nat} :
    file.position a < file.position b ↔ a < b := by
  constructor
  · intro hposition
    rcases Nat.lt_trichotomy a b with hlt | rfl | hgt
    · exact hlt
    · exact absurd hposition (lt_irrefl _)
    · exact absurd hposition (file.position_lt_of_lt hgt).asymm
  · exact file.position_lt_of_lt

lemma IsIndexed.location_eq {file : SourceFile} (h : file.IsIndexed) (offset : Nat) :
    (file.location offset).line = (file.contents.take offset).count '\n' + 1 ∧
      (file.location offset).character =
        offset - startOfLine file.contents (file.location offset).line + 1 := by
  have hposition := positionIn_lineStarts file.contents offset
  rw [← h] at hposition
  have hline : (file.location offset).line = (file.contents.take offset).count '\n' + 1 :=
    congrArg Prod.fst hposition
  refine ⟨hline, ?_⟩
  rw [hline, startOfLine, Int.add_sub_cancel, Int.toNat_natCast]
  exact congrArg Prod.snd hposition

end SourceFile

/-- However often a file has been written to, with or without success, the line of an offset is one
more than the number of newlines before it, which halving among the starts of the lines finds. The
offset is the start of its line with the character, counted from one, added to it, and the offsets
are ordered as their lines and characters. -/
theorem location_is_order_isomorphism (contents : List Char) (path : Option String)
    (attempts : List (Option WriteFailure × List Char)) :
    let file := (SourceFile.ofContents contents path).afterWrites attempts
    (∀ offset : Nat,
      (file.location offset).line = (file.contents.take offset).count '\n' + 1 ∧
        (file.location offset).line = firstWhere
          (fun i => file.lineStarts[i]?.any fun s : Nat => (offset : Int) < s) 0
          file.lineStarts.length ∧
        1 ≤ (file.location offset).character ∧
        (offset : Int) = startOfLine file.contents (file.location offset).line +
          (file.location offset).character - 1) ∧
      ∀ offset offset' : Nat, offset < offset' ↔ file.position offset < file.position offset' := by
  intro file
  have hindexed : file.IsIndexed :=
    (SourceFile.isIndexed_ofContents contents path).afterWrites attempts
  refine ⟨fun offset => ?_, fun _ _ => file.position_lt_iff.symm⟩
  obtain ⟨hline, hcharacter⟩ := hindexed.location_eq offset
  refine ⟨hline, ?_, ?_, by omega⟩
  · have hsorted : file.lineStarts.Pairwise (· < ·) := hindexed ▸ pairwise_lineStarts file.contents
    rw [firstWhere_eq_length_takeWhile hsorted]
    rfl
  · have hbounds := positionIn_character_bounds file.contents (Int.natCast_nonneg offset)
    rw [← hindexed] at hbounds
    exact hbounds.1

end ParenLint
