import ParenLint.Proofs.Statement.Grammar

/-!
# The search for matches

The matches of a pattern in a text follow each other without overlapping, and each covers the text
it was found in. Where the pattern fits at an offset, some match covers that offset: the one that
begins there, or an earlier one that the search has taken before.
-/

namespace ParenLint

open ParenLint.Swift

namespace Pattern

variable {p : Pattern} {kindAt : Nat → TokenKind} {start : Nat} {cs : List Char} {m : Match}

/-- A pattern that never matches the empty text. -/
def IsProductive (p : Pattern) : Prop :=
  ∀ ⦃kindAt start cs m⦄, p.match? kindAt start cs = some m → m.text ≠ []

lemma isProductive_conditional (kind : StatementKind) (captured : Bool) :
    (conditional kind captured).IsProductive := by
  intro kindAt start cs m h
  obtain ⟨-, -, -, gap, body, ending, hwraps, -⟩ := match?_conditional_eq_some_iff.mp h
  exact List.length_pos_iff.mp hwraps.length_pos

lemma eq_of_match? (h : p.match? kindAt start cs = some m) :
    m.start = start ∧ m.kind = kindAt start ∧ ∃ after, cs = m.text ++ after := by
  obtain ⟨parts, hparts, rfl⟩ := Option.map_eq_some_iff.mp h
  exact ⟨rfl, rfl, (forall₂_accepts_of_split? hparts).2⟩

@[simp] lemma matchesFrom_nil : p.matchesFrom kindAt start [] = [] := by
  rw [matchesFrom]

lemma matchesFrom_of_none {c : Char} (h : p.match? kindAt start (c :: cs) = none) :
    p.matchesFrom kindAt start (c :: cs) = p.matchesFrom kindAt (start + 1) cs := by
  rw [matchesFrom, h]

/-- After a match the search goes on just behind it. -/
lemma matchesFrom_of_some (hp : p.IsProductive) {after : List Char}
    (h : p.match? kindAt start (m.text ++ after) = some m) :
    p.matchesFrom kindAt start (m.text ++ after) =
      m :: p.matchesFrom kindAt m.stop after := by
  obtain ⟨hstart, -⟩ := eq_of_match? h
  cases htext : m.text with
  | nil => exact absurd htext (hp h)
  | cons c text =>
    rw [htext] at h
    rw [List.cons_append] at h ⊢
    rw [matchesFrom, h]
    have hlength : m.length = text.length + 1 := by simp [Match.length, htext]
    simp [Match.stop, hlength, hstart]

/-- Induction along the search: the text is empty, begins with a match, or has its first character
passed over. -/
lemma search_induction (hp : p.IsProductive) (kindAt : Nat → TokenKind)
    {motive : Nat → List Char → Prop}
    (nil : ∀ start, motive start [])
    (found : ∀ start m after, p.match? kindAt start (m.text ++ after) = some m →
      motive m.stop after → motive start (m.text ++ after))
    (passed : ∀ start c cs, p.match? kindAt start (c :: cs) = none →
      motive (start + 1) cs → motive start (c :: cs)) :
    ∀ start cs, motive start cs := by
  intro start cs
  induction hlen : cs.length using Nat.strongRecOn generalizing start cs with
  | ind n ih =>
    cases cs with
    | nil => exact nil start
    | cons c cs =>
      cases hmatch : p.match? kindAt start (c :: cs) with
      | none => exact passed start c cs hmatch (ih cs.length (by simp [← hlen]) _ _ rfl)
      | some m =>
        obtain ⟨-, -, after, hafter⟩ := eq_of_match? hmatch
        rw [hafter] at hmatch hlen ⊢
        have hpos := List.length_pos_iff.mpr (hp hmatch)
        simp only [List.length_append] at hlen
        exact found start m after hmatch (ih after.length (by omega) _ _ rfl)

/-- Each match covers a stretch of the text, and the pattern matches there. -/
theorem exists_of_mem_matchesFrom (hp : p.IsProductive) (hm : m ∈ p.matchesFrom kindAt start cs) :
    ∃ before after, cs = before ++ m.text ++ after ∧ m.start = start + before.length ∧
      p.match? kindAt m.start (m.text ++ after) = some m := by
  induction start, cs using search_induction hp kindAt with
  | nil start => simp at hm
  | found start n after hn ih =>
    obtain ⟨hstart, -⟩ := eq_of_match? hn
    rw [matchesFrom_of_some hp hn] at hm
    obtain rfl | hm := List.mem_cons.mp hm
    · exact ⟨[], after, by simp, by simpa using hstart, hstart ▸ hn⟩
    · obtain ⟨before, after, rfl, hoffset, hmatch⟩ := ih hm
      refine ⟨n.text ++ before, after, by simp, ?_, hmatch⟩
      simp only [hoffset, Match.stop, Match.length, hstart, List.length_append]
      omega
  | passed start c cs hnone ih =>
    rw [matchesFrom_of_none hnone] at hm
    obtain ⟨before, after, rfl, hoffset, hmatch⟩ := ih hm
    refine ⟨c :: before, after, by simp, ?_, hmatch⟩
    simp only [hoffset, List.length_cons]
    omega

lemma le_start_of_mem_matchesFrom (hp : p.IsProductive)
    (hm : m ∈ p.matchesFrom kindAt start cs) : start ≤ m.start := by
  obtain ⟨before, -, -, hstart, -⟩ := exists_of_mem_matchesFrom hp hm
  omega

/-- Each match ends no later than the next begins. -/
theorem pairwise_matchesFrom (hp : p.IsProductive) :
    (p.matchesFrom kindAt start cs).Pairwise fun m n => m.stop ≤ n.start := by
  induction start, cs using search_induction hp kindAt with
  | nil start => simp
  | found start m after hm ih =>
    rw [matchesFrom_of_some hp hm]
    exact .cons (fun n hn => le_start_of_mem_matchesFrom hp hn) ih
  | passed start c cs hnone ih => rwa [matchesFrom_of_none hnone]

/-- A match ends no later than any match behind it begins. -/
lemma stop_le_start_of_lt (hp : p.IsProductive) {n : Match}
    (hm : m ∈ p.matchesFrom kindAt start cs) (hn : n ∈ p.matchesFrom kindAt start cs)
    (hlt : m.start < n.start) : m.stop ≤ n.start := by
  have hpairs : (p.matchesFrom kindAt start cs).Pairwise fun j k => j.stop ≤ k.start :=
    pairwise_matchesFrom hp
  refine List.Pairwise.forall_of_forall_of_flip
    (R := fun j k : Match => j.start < k.start → j.stop ≤ k.start) ?_ ?_ ?_ hm hn hlt
  · exact fun k _ hk => absurd hk (Nat.lt_irrefl _)
  · exact hpairs.imp fun {j k} hle (_ : j.start < k.start) => hle
  · refine hpairs.imp fun {j k} hle (hk : k.start < j.start) => ?_
    have hstop : j.stop = j.start + j.length := rfl
    omega

/-- Where the pattern fits, a match covers the offset. -/
theorem exists_covering_of_match? (hp : p.IsProductive) {before after : List Char}
    (h : p.match? kindAt (start + before.length) after = some m) :
    ∃ n ∈ p.matchesFrom kindAt start (before ++ after), n.start ≤ m.start ∧ m.start < n.stop := by
  obtain ⟨hstart, -⟩ := eq_of_match? h
  generalize hcs : before ++ after = cs
  induction start, cs using search_induction hp kindAt generalizing before with
  | nil start =>
    obtain ⟨rfl, rfl⟩ := List.append_eq_nil_iff.mp hcs
    obtain ⟨-, -, rest, hrest⟩ := eq_of_match? h
    exact absurd (List.append_eq_nil_iff.mp hrest.symm).1 (hp h)
  | found start n rest hn ih =>
    rw [matchesFrom_of_some hp hn]
    obtain ⟨hnstart, -⟩ := eq_of_match? hn
    by_cases hlt : m.start < n.stop
    · exact ⟨n, List.mem_cons_self, by omega, hlt⟩
    · -- The match lies behind `n`, in the part that is searched next.
      have hstop : n.stop = start + n.text.length := by simp [Match.stop, Match.length, hnstart]
      obtain ⟨mid, rfl⟩ : ∃ mid, before = n.text ++ mid :=
        (List.prefix_of_prefix_length_le ⟨rest, hcs.symm⟩ ⟨after, rfl⟩ (by omega)).imp
          fun _ => Eq.symm
      rw [List.append_assoc, List.append_cancel_left_eq] at hcs
      have hoffset : start + (n.text ++ mid).length = n.stop + mid.length := by
        rw [hstop, List.length_append, Nat.add_assoc]
      rw [hoffset] at h hstart
      obtain ⟨k, hk, hle, hlt⟩ := ih h hstart hcs
      exact ⟨k, List.mem_cons_of_mem _ hk, hle, hlt⟩
  | passed start c cs hnone ih =>
    rw [matchesFrom_of_none hnone]
    cases before with
    | nil =>
      simp only [List.nil_append] at hcs
      simp [hcs, hnone] at h
    | cons d before =>
      obtain ⟨rfl, rfl⟩ := List.cons.inj hcs
      rw [List.length_cons, Nat.add_comm before.length, ← Nat.add_assoc] at h hstart
      exact ih h hstart rfl

end Pattern

/-! ### What a pattern records -/

/-- The match without what the pattern has recorded. -/
def Match.withoutCapture (m : Match) : Match := { m with captured := none }

namespace Pattern

variable {kind : StatementKind} {kindAt : Nat → TokenKind} {start : Nat} {cs : List Char}

/-- Recording the body does not change where the pattern of a conditional fits. -/
lemma match?_conditional_map (kind : StatementKind) :
    ((conditional kind true).match? kindAt start cs).map Match.withoutCapture =
      (conditional kind false).match? kindAt start cs := by
  apply Option.ext
  intro m
  rw [Option.map_eq_some_iff, match?_conditional_eq_some_iff]
  constructor
  · rintro ⟨n, hn, rfl⟩
    obtain ⟨hstart, hkind, hrest, gap, body, ending, hwraps, -⟩ :=
      match?_conditional_eq_some_iff.mp hn
    exact ⟨hstart, hkind, hrest, gap, body, ending, hwraps, rfl⟩
  · rintro ⟨hstart, hkind, hrest, gap, body, ending, hwraps, hcaptured⟩
    refine ⟨{ m with captured := some body }, ?_, ?_⟩
    · exact match?_conditional_eq_some_iff.mpr
        ⟨hstart, hkind, hrest, gap, body, ending, hwraps, rfl⟩
    · rw [Match.withoutCapture, ← show m.captured = none from hcaptured]

/-- The searches with and without recording find the same matches. -/
theorem matchesFrom_conditional_map (kind : StatementKind) :
    ((conditional kind true).matchesFrom kindAt start cs).map Match.withoutCapture =
      (conditional kind false).matchesFrom kindAt start cs := by
  have hp := isProductive_conditional kind true
  induction start, cs using search_induction hp kindAt with
  | nil start => simp
  | found start m after hm ih =>
    have hm' : (conditional kind false).match? kindAt start (m.withoutCapture.text ++ after) =
        some m.withoutCapture := by
      rw [← match?_conditional_map]
      exact congrArg (Option.map Match.withoutCapture) hm
    rw [matchesFrom_of_some hp hm, List.map_cons, ih]
    exact (matchesFrom_of_some (isProductive_conditional kind false) hm').symm
  | passed start c cs hnone ih =>
    have hnone' : (conditional kind false).match? kindAt start (c :: cs) = none := by
      rw [← match?_conditional_map, hnone]
      rfl
    rw [matchesFrom_of_none hnone, matchesFrom_of_none hnone', ih]

end Pattern

end ParenLint
