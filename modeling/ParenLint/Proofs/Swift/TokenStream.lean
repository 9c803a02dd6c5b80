import ParenLint.Proofs.Swift.Readers
import ParenLint.Statement.Kind
import ParenLint.Swift.Token

/-!
# The stream of tokens

Tokens follow one another in the text and none of them overlaps another, so the kind at an offset is
that of the one token that covers it.
-/

namespace ParenLint.Swift

variable {start : Nat} {cs : List Char} {kind : TokenKind} {n : Nat}

/-! ### The course of the scan -/

lemma tokensFrom_nil : tokensFrom start [] = [] := by
  rw [tokensFrom]

lemma tokensFrom_of_some (h : lexeme? cs = some (kind, n)) :
    tokensFrom start cs = ⟨start, n, kind⟩ :: tokensFrom (start + n) (cs.drop n) := by
  cases cs with
  | nil => cases h
  | cons c rest =>
    obtain ⟨n, rfl⟩ := Nat.exists_eq_succ_of_ne_zero (Nat.ne_of_gt (lexeme?_bounds h).1)
    rw [tokensFrom, h]
    rfl

lemma tokensFrom_of_none {c : Char} (h : lexeme? (c :: cs) = none) :
    tokensFrom start (c :: cs) = tokensFrom (start + 1) cs := by
  rw [tokensFrom, h]

/-! ### The order of tokens -/

lemma le_start_of_mem_tokensFrom {t : Token} (ht : t ∈ tokensFrom start cs) : start ≤ t.start := by
  fun_induction tokensFrom start cs with
  | case1 => simp at ht
  | case2 start c rest kind n hlexeme ih =>
    rcases List.mem_cons.mp ht with rfl | ht
    · exact Nat.le_refl _
    · exact Nat.le_trans (Nat.le_add_right _ _) (ih ht)
  | case3 start c rest hlexeme ih => exact Nat.le_of_succ_le (ih ht)

lemma length_pos_of_mem_tokensFrom {t : Token} (ht : t ∈ tokensFrom start cs) : 0 < t.length := by
  fun_induction tokensFrom start cs with
  | case1 => simp at ht
  | case2 start c rest kind n hlexeme ih =>
    rcases List.mem_cons.mp ht with rfl | ht
    · exact (lexeme?_bounds hlexeme).1
    · exact ih ht
  | case3 start c rest hlexeme ih => exact ih ht

/-- A token covers its first offset. -/
lemma covers_start_of_mem_tokensFrom {t : Token} (ht : t ∈ tokensFrom start cs) :
    t.Covers t.start := by
  have hpos := length_pos_of_mem_tokensFrom ht
  exact ⟨Int.le_refl _, by rw [Token.stop]; omega⟩

/-- No token begins before the one in front of it has ended. -/
lemma pairwise_tokensFrom (start : Nat) (cs : List Char) :
    (tokensFrom start cs).Pairwise fun t u => t.stop ≤ u.start := by
  fun_induction tokensFrom start cs with
  | case1 => exact List.Pairwise.nil
  | case2 start c rest kind n hlexeme ih =>
    exact List.pairwise_cons.mpr ⟨fun t ht => le_start_of_mem_tokensFrom ht, ih⟩
  | case3 start c rest hlexeme ih => exact ih

/-- A token is the only one that covers its offsets. -/
lemma eq_of_covers {ts : List Token} (hts : ts.Pairwise fun t u => t.stop ≤ u.start) {t u : Token}
    (ht : t ∈ ts) (hu : u ∈ ts) {offset : Int} (htc : t.Covers offset) (huc : u.Covers offset) :
    t = u := by
  induction ts with
  | nil => simp at ht
  | cons v ts ih =>
    obtain ⟨hv, hts⟩ := List.pairwise_cons.mp hts
    have happart : ∀ w ∈ ts, v.Covers offset → ¬ w.Covers offset := fun w hw hvc hwc => by
      have hle := hv w hw
      have hlt := hvc.2
      have hge := hwc.1
      omega
    rw [List.mem_cons] at ht hu
    rcases ht with rfl | ht <;> rcases hu with rfl | hu
    · rfl
    · exact absurd huc (happart u hu htc)
    · exact absurd htc (happart t ht huc)
    · exact ih hts ht hu

/-- The kind at an offset is that of the token there. -/
lemma kindAt_eq_of_mem {contents : List Char} {t : Token} (ht : t ∈ tokens contents)
    {offset : Int} (hcovers : t.Covers offset) :
    Token.kindAt (tokens contents) offset = t.kind := by
  rw [Token.kindAt]
  cases hfind : (tokens contents).find? fun t => t.Covers offset with
  | none => exact absurd hcovers (by simpa using List.find?_eq_none.mp hfind t ht)
  | some u =>
    have huc : u.Covers offset := by simpa using List.find?_some hfind
    rw [eq_of_covers (pairwise_tokensFrom 0 contents) (List.mem_of_find?_eq_some hfind) ht huc
      hcovers]

/-- Each token is the lexeme that begins the text there. -/
lemma lexeme?_of_mem_tokensFrom {t : Token} (ht : t ∈ tokensFrom start cs) :
    lexeme? (cs.drop (t.start - start)) = some (t.kind, t.length) := by
  fun_induction tokensFrom start cs with
  | case1 => simp at ht
  | case2 start c rest kind n hlexeme ih =>
    obtain ⟨hpos, -⟩ := lexeme?_bounds hlexeme
    rcases List.mem_cons.mp ht with rfl | ht
    · simpa using hlexeme
    · have hle := le_start_of_mem_tokensFrom ht
      have hdrop := ih ht
      rw [List.drop_drop] at hdrop
      have hoffset : t.start - start = (n - 1 + (t.start - (start + n))) + 1 := by omega
      rw [hoffset, List.drop_succ_cons]
      exact hdrop
  | case3 start c rest hlexeme ih =>
    have hle := le_start_of_mem_tokensFrom ht
    have hoffset : t.start - start = (t.start - (start + 1)) + 1 := by omega
    rw [hoffset, List.drop_succ_cons]
    exact ih ht

/-! ### Keywords of statements -/

lemma isNameChar_of_mem_keyword (kind : StatementKind) :
    ∀ d ∈ kind.keyword.toList, isNameChar d = true :=
  List.all_eq_true.mp (by cases kind <;> rfl)

/-- No keyword ends in that of a statement but the keyword of the statement itself. -/
lemma eq_nil_of_isKeyword_append {front : List Char} {kind : StatementKind}
    (h : isKeyword (front ++ kind.keyword.toList) = true) : front = [] := by
  have hkeywords : ∀ k ∈ keywords, ∀ kind ∈ StatementKind.all,
      kind.keyword.toList <:+ k.toList → k.toList.length = kind.keyword.toList.length := by
    decide +kernel
  simp only [isKeyword, List.any_eq_true, beq_iff_eq] at h
  obtain ⟨k, hk, heq⟩ := h
  have hlength := hkeywords k hk kind (by cases kind <;> decide) ⟨front, heq.symm⟩
  simpa [heq] using hlength

/-- Where the keyword of a statement ends a name, a keyword that covers its first letter is that
keyword. -/
theorem mem_tokens_of_kindAt (kind : StatementKind) {before rest : List Char} {c : Char}
    (hc : isNameChar c = false)
    (h : Token.kindAt (tokens (before ++ (kind.keyword.toList ++ c :: rest))) before.length =
      .keyword) :
    ⟨before.length, kind.keyword.toList.length, .keyword⟩ ∈
      tokens (before ++ (kind.keyword.toList ++ c :: rest)) := by
  rw [Token.kindAt] at h
  split at h
  · next t hfind =>
    have ht := List.mem_of_find?_eq_some hfind
    have hcovers : t.Covers before.length := by simpa using List.find?_some hfind
    have hle := Int.ofNat_le.mp hcovers.1
    have hlt := Int.ofNat_lt.mp hcovers.2
    obtain ⟨lead, covered, rfl, hlead⟩ : ∃ lead covered, before = lead ++ covered ∧
        lead.length = t.start :=
      ⟨before.take t.start, before.drop t.start, (List.take_append_drop _ _).symm,
        List.length_take_of_le hle⟩
    have hlexeme := lexeme?_of_mem_tokensFrom ht
    rw [h, Nat.sub_zero, List.append_assoc, ← hlead, List.drop_left] at hlexeme
    rw [Token.stop, List.length_append, ← hlead] at hlt
    obtain ⟨htake, hkeyword⟩ := take_of_lexeme?_keyword (isNameChar_of_mem_keyword kind) hc
      hlexeme (Nat.lt_of_add_lt_add_left hlt)
    obtain rfl := eq_nil_of_isKeyword_append hkeyword
    have hlength := congrArg List.length htake
    rw [List.length_take_of_le (lexeme?_bounds hlexeme).2] at hlength
    have heq : t = ⟨lead.length, kind.keyword.toList.length, .keyword⟩ := by
      rw [Token.mk.injEq]
      exact ⟨hlead.symm, hlength, h⟩
    rw [heq] at ht
    simpa using ht
  · cases h

end ParenLint.Swift
