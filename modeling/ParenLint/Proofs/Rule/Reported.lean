import Mathlib.Data.List.Nodup
import ParenLint.Proofs.Rule.Coverage
import ParenLint.Proofs.Statement.Nesting

/-!
# Where violations are reported

Each violation of a kind of statement stands where a keyword token begins that spells the kind. The
violations of one kind follow each other in the text, and no place is reported under two kinds.
-/

namespace ParenLint

open ParenLint.Swift

variable {kind : StatementKind} {kindAt : Nat → TokenKind} {contents : List Char} {offset : Nat}

/-- The offsets at which wrapped conditionals of a kind are found, in the order of the search. -/
def wrappedOffsets (kindAt : Nat → TokenKind) (contents : List Char) (kind : StatementKind) :
    List Nat :=
  ((Pattern.statement kind).wrapped kindAt contents).map Match.start

lemma check_eq_flatMap (file : SourceFile) (kindAt : Nat → TokenKind) (severity : Severity) :
    check file kindAt severity = StatementKind.all.flatMap fun kind =>
      (wrappedOffsets kindAt file.contents kind).map fun offset : Nat =>
        controlStatement.violation severity (file.location offset) := by
  simp only [check, wrappedOffsets, List.map_map, Function.comp_def]

/-- A wrapped conditional begins with its keyword, and no name goes on behind that. -/
lemma exists_of_mem_wrappedOffsets (h : offset ∈ wrappedOffsets kindAt contents kind) :
    kindAt offset = .keyword ∧ ∃ before c rest,
      contents = before ++ (kind.keyword.toList ++ c :: rest) ∧ offset = before.length ∧
        isNameChar c = false := by
  obtain ⟨m, hm, rfl⟩ := List.mem_map.mp h
  obtain ⟨hmatch, hwrapped⟩ := Pattern.mem_wrapped.mp hm
  obtain ⟨before, gap, body, ending, after, hcontents, hstart, hkind, hwraps⟩ :=
    Pattern.exists_wraps_of_mem_matches hmatch
  have hkeyword := m.kind_of_isFalsePositive_eq_false hwrapped
  obtain ⟨c, cs, hgap, hc⟩ := exists_cons_of_blanks hwraps.gap_blank (body ++ ')' :: ending)
  refine ⟨hkind ▸ hkeyword, before, c, cs ++ after, ?_, hstart, hc⟩
  rw [hcontents, hwraps.text_eq, ← List.cons_append, ← hgap]
  simp only [List.append_assoc, List.cons_append]

/-- The search finds the conditionals of a kind in the order of the text. -/
lemma pairwise_wrappedOffsets : (wrappedOffsets kindAt contents kind).Pairwise (· < ·) := by
  have hproductive := Pattern.isProductive_conditional kind false
  have hstops : ((Pattern.statement kind).wrapped kindAt contents).Pairwise
      fun m n => m.stop ≤ n.start :=
    (Pattern.pairwise_matchesFrom hproductive).filter _
  rw [wrappedOffsets, List.pairwise_map]
  apply hstops.imp_of_mem
  intro m n hm _ hle
  obtain ⟨_, _, _, _, _, -, -, -, hwraps⟩ :=
    Pattern.exists_wraps_of_mem_matches (Pattern.mem_wrapped.mp hm).1
  exact Nat.lt_of_lt_of_le (Nat.lt_add_of_pos_right hwraps.length_pos) hle

/-- No two kinds of statements are found at one place. -/
lemma disjoint_wrappedOffsets {kind' : StatementKind} (hne : kind ≠ kind') :
    (wrappedOffsets kindAt contents kind).Disjoint (wrappedOffsets kindAt contents kind') := by
  intro offset h h'
  obtain ⟨-, before, c, rest, hcontents, hoffset, -⟩ := exists_of_mem_wrappedOffsets h
  obtain ⟨-, before', c', rest', hcontents', hoffset', -⟩ := exists_of_mem_wrappedOffsets h'
  have htexts := (List.append_inj (hcontents.symm.trans hcontents')
    (hoffset.symm.trans hoffset')).2
  exact hne (StatementKind.eq_of_keyword_append_eq htexts)

/-- Under the kinds of the tokens, a wrapped conditional begins with a token that spells its
keyword. -/
lemma mem_tokens_of_mem_wrappedOffsets
    (h : offset ∈ wrappedOffsets (fun o => Token.kindAt (tokens contents) o) contents kind) :
    ⟨offset, kind.keyword.toList.length, .keyword⟩ ∈ tokens contents ∧
      Token.text ⟨offset, kind.keyword.toList.length, .keyword⟩ contents =
        kind.keyword.toList := by
  obtain ⟨hkeyword, before, c, rest, rfl, rfl, hc⟩ := exists_of_mem_wrappedOffsets h
  refine ⟨mem_tokens_of_kindAt kind hc hkeyword, ?_⟩
  rw [Token.text, List.drop_left, List.take_left]

/-- The violations of each kind are reported in the order of the text. Each stands where a keyword
token begins that spells the kind, which no other token covers, and none is reported twice. -/
theorem reported_at_keyword_tokens (file : SourceFile) (severity : Severity) :
    let ts := tokens file.contents
    let offsets := wrappedOffsets (fun o => Token.kindAt ts o) file.contents
    let violations := check file (fun o => Token.kindAt ts o) severity
    violations = (StatementKind.all.flatMap fun kind => (offsets kind).map fun offset : Nat =>
        controlStatement.violation severity (file.location offset)) ∧
      (∀ kind, ∀ offset ∈ offsets kind, ∃ t ∈ ts, t.start = offset ∧ t.kind = .keyword ∧
        t.text file.contents = kind.keyword.toList ∧ ∀ u ∈ ts, u.Covers offset → u = t) ∧
      (∀ kind, (offsets kind).Pairwise (· < ·)) ∧
      (violations.map fun v => v.location.offset).Nodup := by
  intro ts offsets violations
  have hviolations := check_eq_flatMap file (fun o => Token.kindAt ts o) severity
  refine ⟨hviolations, ?_, fun kind => pairwise_wrappedOffsets, ?_⟩
  · intro kind offset hoffset
    obtain ⟨ht, htext⟩ := mem_tokens_of_mem_wrappedOffsets hoffset
    refine ⟨_, ht, rfl, rfl, htext, ?_⟩
    intro u hu hcovers
    exact eq_of_covers (pairwise_tokensFrom 0 file.contents) hu ht hcovers
      (covers_start_of_mem_tokensFrom ht)
  · have hoffsets : violations.map (fun v => v.location.offset) =
        (StatementKind.all.flatMap offsets).map Int.ofNat := by
      simp only [violations, hviolations, List.map_flatMap, List.map_map]
      rfl
    rw [hoffsets]
    apply List.Nodup.map (fun _ _ => Int.ofNat.inj)
    rw [List.nodup_flatMap]
    refine ⟨fun kind _ => pairwise_wrappedOffsets.imp Nat.ne_of_lt, ?_⟩
    have hkinds : StatementKind.all.Nodup := by decide
    exact hkinds.imp fun hne => disjoint_wrappedOffsets hne

/-- The end of a name is no keyword. -/
example :
    let contents := "motif (a) \x7b if (b) \x7b".toList
    wrappedOffsets (fun o => Token.kindAt (tokens contents) o) contents .if = [12] := by
  decide +kernel

end ParenLint
