import Mathlib.Logic.ExistsUnique
import Mathlib.Tactic.ByContra
import ParenLint.Proofs.Swift.Scan

/-!
# Classification of offsets

The tokens of a text follow each other without overlap, and between them nothing is left that could
begin one. So every offset has at most one token, which is found by halving among the offsets at
which tokens begin.
-/

namespace ParenLint.Swift

open ParenLint.Text

variable {contents front rest : List Char} {c : Char} {ts : List Token} {offset : Int}

/-! ### Search by halving -/

/-- The first place from `lo` up to `hi` at which `p` holds, found by halving. If `p` holds nowhere
before `hi`, it is `hi`. -/
def firstWhere (p : Nat → Bool) (lo hi : Nat) : Nat :=
  if lo < hi then
    if p ((lo + hi) / 2) then firstWhere p lo ((lo + hi) / 2)
    else firstWhere p ((lo + hi) / 2 + 1) hi
  else lo
termination_by hi - lo

/-- What holds from some place on begins to hold at the place that is found. -/
lemma firstWhere_spec {p : Nat → Bool} {lo hi : Nat} (hle : lo ≤ hi)
    (hmono : ∀ i j, i ≤ j → j < hi → p i = true → p j = true) :
    firstWhere p lo hi ≤ hi ∧ (∀ i, lo ≤ i → i < firstWhere p lo hi → p i = false) ∧
      (firstWhere p lo hi < hi → p (firstWhere p lo hi) = true) := by
  fun_induction firstWhere p lo hi with
  | case1 lo hi hlt hmid ih =>
    obtain ⟨hbound, hbefore, hat⟩ := ih (by omega) fun i j hij hj => hmono i j hij (by omega)
    refine ⟨by omega, hbefore, fun _ => ?_⟩
    rcases Nat.lt_or_eq_of_le hbound with hfound | hfound
    · exact hat hfound
    · rw [hfound]
      exact hmid
  | case2 lo hi hlt hmid ih =>
    obtain ⟨hbound, hbefore, hat⟩ := ih (by omega) hmono
    refine ⟨hbound, fun i hlo hfound => ?_, hat⟩
    by_cases hpast : i ≤ (lo + hi) / 2
    · rw [← Bool.not_eq_true]
      exact fun hp => hmid (hmono i _ hpast (by omega) hp)
    · exact hbefore i (by omega) hfound
  | case3 lo hi hge =>
    exact ⟨hle, fun i hlo hfound => by omega, fun hlt => absurd hlt hge⟩

/-- What fails before a place and holds from there on is found at that place. -/
lemma firstWhere_eq {p : Nat → Bool} {k hi : Nat} (hk : k ≤ hi)
    (hbefore : ∀ i < k, p i = false) (hfrom : ∀ i, k ≤ i → i < hi → p i = true) :
    firstWhere p 0 hi = k := by
  have hmono : ∀ i j, i ≤ j → j < hi → p i = true → p j = true := by
    intro i j hij hj hi
    apply hfrom j _ hj
    by_contra hlt
    rw [hbefore i (by omega)] at hi
    cases hi
  obtain ⟨hbound, hfail, hhold⟩ := firstWhere_spec (Nat.zero_le hi) hmono
  rcases Nat.lt_trichotomy (firstWhere p 0 hi) k with hlt | heq | hgt
  · have hfound := hhold (by omega)
    rw [hbefore _ hlt] at hfound
    cases hfound
  · exact heq
  · have hpassed := hfail k (Nat.zero_le k) hgt
    rw [hfrom k (Nat.le_refl k) (by omega)] at hpassed
    cases hpassed

/-- The kind at an offset, looked up by halving: of the tokens that begin no later than the offset
only the last one can cover it. -/
def Token.lookUp (ts : List Token) (offset : Int) : TokenKind :=
  match firstWhere (fun i => ts[i]?.any fun t => offset < t.start) 0 ts.length with
  | 0 => .other
  | i + 1 =>
    match ts[i]? with
    | some t => if t.Covers offset then t.kind else .other
    | none => .other

/-- The tokens are not empty, and each begins after the one in front of it has ended. -/
structure Ordered (ts : List Token) : Prop where
  length_pos : ∀ t ∈ ts, 0 < t.length
  pairwise : ts.Pairwise fun t u => t.stop ≤ u.start

namespace Ordered

lemma start_lt (h : Ordered ts) : ts.Pairwise fun t u => t.start < u.start := by
  apply h.pairwise.imp_of_mem
  intro t u ht _ hle
  have hpos := h.length_pos t ht
  rw [Token.stop] at hle
  omega

/-- The tokens that begin after an offset are the last ones. -/
lemma begins_after_mono (h : Ordered ts) (offset : Int) {i j : Nat} (hij : i ≤ j)
    (hj : j < ts.length) (hi : ts[i]?.any (fun t => decide (offset < t.start)) = true) :
    ts[j]?.any (fun t => decide (offset < t.start)) = true := by
  rcases Nat.lt_or_eq_of_le hij with hlt | rfl
  · have hstart := List.pairwise_iff_getElem.mp h.start_lt i j (by omega) hj hlt
    rw [List.getElem?_eq_getElem (by omega), Option.any_some, decide_eq_true_eq] at hi
    rw [List.getElem?_eq_getElem hj, Option.any_some, decide_eq_true_eq]
    omega
  · exact hi

/-- The token that covers an offset is the last of those that begin no later. -/
lemma firstWhere_eq_of_covers (h : Ordered ts) {k : Nat} (hk : k < ts.length)
    (hcovers : ts[k].Covers offset) :
    firstWhere (fun i => ts[i]?.any fun t => offset < t.start) 0 ts.length = k + 1 := by
  apply firstWhere_eq hk
  · intro i hi
    rw [← Bool.not_eq_true]
    intro hlater
    have hbegun := h.begins_after_mono offset (Nat.le_of_lt_succ hi) hk hlater
    rw [List.getElem?_eq_getElem hk, Option.any_some, decide_eq_true_eq] at hbegun
    exact absurd hcovers.1 (Int.not_le.mpr hbegun)
  · intro i hki hi
    have hstop := List.pairwise_iff_getElem.mp h.pairwise k i hk hi hki
    have hlt := hcovers.2
    rw [List.getElem?_eq_getElem hi, Option.any_some, decide_eq_true_eq]
    omega

/-- Looking up by halving finds the token that covers the offset. -/
theorem lookUp_eq_kindAt (h : Ordered ts) (offset : Int) :
    Token.lookUp ts offset = Token.kindAt ts offset := by
  by_cases hcovered : ∃ t ∈ ts, t.Covers offset
  · obtain ⟨t, ht, hcovers⟩ := hcovered
    obtain ⟨k, hk, rfl⟩ := List.getElem_of_mem ht
    have hlookUp : Token.lookUp ts offset = ts[k].kind := by
      simp only [Token.lookUp, h.firstWhere_eq_of_covers hk hcovers, List.getElem?_eq_getElem hk,
        if_pos hcovers]
    have hfind : Token.kindAt ts offset = ts[k].kind := by
      rw [Token.kindAt]
      cases hfind : ts.find? fun t => t.Covers offset with
      | none => exact absurd hcovers (by simpa using List.find?_eq_none.mp hfind _ ht)
      | some u =>
        have huc : u.Covers offset := by simpa using List.find?_some hfind
        rw [eq_of_covers h.pairwise (List.mem_of_find?_eq_some hfind) ht huc hcovers]
    rw [hlookUp, hfind]
  · simp only [not_exists, not_and] at hcovered
    rw [Token.kindAt_eq_other_of_forall hcovered, Token.lookUp]
    split
    · rfl
    · split
      · next t ht => exact if_neg (hcovered t (List.mem_of_getElem? ht))
      · rfl

end Ordered

/-! ### The tokens of a text -/

lemma ordered_tokens (contents : List Char) : Ordered (tokens contents) :=
  ⟨fun _ ht => length_pos_of_mem_tokensFrom ht, pairwise_tokensFrom 0 contents⟩

lemma stop_le_length_of_mem_tokens {t : Token} (ht : t ∈ tokens contents) :
    t.stop ≤ contents.length := by
  obtain ⟨parts, hscan⟩ := Scan.exists_scan_nil contents
  rw [hscan.tokens_eq] at ht
  have hstop := Part.stop_le_of_mem_tokensAt ht
  rwa [hscan.texts_eq, Nat.zero_add] at hstop

/-- The lexeme that begins where a scan has come to stand is a token. -/
lemma Scan.mem_tokens {parts : List Part} {kind : TokenKind} {n : Nat} (h : Scan front rest parts)
    (hlexeme : lexeme? rest = some (kind, n)) :
    ⟨front.length, n, kind⟩ ∈ tokens (front ++ rest) := by
  rw [tokens, h.tokensFrom_eq 0, tokensFrom_of_some hlexeme, Nat.zero_add]
  exact List.mem_append_right _ List.mem_cons_self

/-- Where a scan has come to stand, the kind is that of the lexeme that begins there. -/
lemma Scan.kindAt_eq {parts : List Part} (h : Scan front (c :: rest) parts) :
    Token.kindAt (tokens (front ++ c :: rest)) front.length =
      ((lexeme? (c :: rest)).map Prod.fst).getD .other := by
  cases hlexeme : lexeme? (c :: rest) with
  | some lexeme =>
    have ht := h.mem_tokens hlexeme
    exact kindAt_eq_of_mem ht (covers_start_of_mem_tokensFrom ht)
  | none => exact Token.kindAt_eq_other_of_forall (h.not_covers_of_lexeme?_eq_none hlexeme)

/-- No lexeme begins at a character outside all tokens. -/
lemma not_beginsLexeme_of_not_covers
    (h : ∀ t ∈ tokens (front ++ c :: rest), ¬ t.Covers front.length) : ¬ BeginsLexeme c rest := by
  intro hbegins
  rw [← isSome_lexeme?_cons] at hbegins
  obtain ⟨⟨kind, n⟩, hlexeme⟩ := Option.isSome_iff_exists.mp hbegins
  obtain ⟨parts, hscan⟩ : ∃ parts, Scan front (c :: rest) parts := by
    apply Scan.exists_scan front (c :: rest) 0
    rintro t ht ⟨hstart, hstop⟩
    refine h t ht ⟨?_, ?_⟩ <;> omega
  have ht := hscan.mem_tokens hlexeme
  exact h _ ht (covers_start_of_mem_tokensFrom ht)

lemma exists_covers_of_beginsLexeme (front : List Char) (h : BeginsLexeme c rest) :
    ∃ t ∈ tokens (front ++ c :: rest), t.Covers front.length := by
  by_contra hnone
  simp only [not_exists, not_and] at hnone
  exact not_beginsLexeme_of_not_covers hnone h

/-- A text is cut where one of its characters stands. -/
lemma exists_split_of_getElem? {i : Nat} (h : contents[i]? = some c) :
    ∃ front rest, contents = front ++ c :: rest ∧ front.length = i := by
  obtain ⟨hi, rfl⟩ := List.getElem?_eq_some_iff.mp h
  refine ⟨contents.take i, contents.drop (i + 1), ?_, List.length_take_of_le (Nat.le_of_lt hi)⟩
  rw [← List.drop_eq_getElem_cons hi, List.take_append_drop]

/-- The characters that always begin a lexeme: ASCII letters, underscores, decimal digits and double
quotes. -/
lemma beginsLexeme_of_isFirst (rest : List Char)
    (h : c.isAlpha = true ∨ c = '_' ∨ isDecimalDigit c = true ∨ c = '"') : BeginsLexeme c rest := by
  rcases h with hletter | hunderscore | hdigit | hquote
  · exact .inr (.inr (.inr (.inr (.inr (by simp [isNameStart, hletter])))))
  · exact .inr (.inr (.inr (.inr (.inr (by simp [isNameStart, hunderscore])))))
  · exact .inr (.inr (.inl hdigit))
  · exact .inr (.inl hquote)

/-- The tokens of a text are not empty, lie in it one behind the other and do not overlap. Each
letter, underscore, digit and double quote belongs to exactly one of them, and no comment begins
outside of them. The kind at an offset, which halving finds, is that of the one token that covers
it, and where there is none it is `other`. -/
theorem tokens_cover_text (contents : List Char) :
    (∀ t ∈ tokens contents, 0 < t.length ∧ t.stop ≤ contents.length) ∧
      ((tokens contents).Pairwise fun t u => t.start < u.start ∧ t.stop ≤ u.start) ∧
      (∀ (i : Nat) (c : Char), contents[i]? = some c →
        (c.isAlpha = true ∨ c = '_' ∨ isDecimalDigit c = true ∨ c = '"') →
          ∃! t, t ∈ tokens contents ∧ t.Covers i) ∧
      (∀ i : Nat, (∀ t ∈ tokens contents, ¬ t.Covers i) →
        ¬ ['/', '/'] <+: contents.drop i ∧ ¬ ['/', '*'] <+: contents.drop i) ∧
      ∀ offset : Int,
        Token.lookUp (tokens contents) offset = Token.kindAt (tokens contents) offset ∧
        (∀ t ∈ tokens contents, t.Covers offset →
          Token.lookUp (tokens contents) offset = t.kind ∧
            ∀ u ∈ tokens contents, u.Covers offset → u = t) ∧
        ((∀ t ∈ tokens contents, ¬ t.Covers offset) →
          Token.lookUp (tokens contents) offset = .other) := by
  have hordered := ordered_tokens contents
  refine ⟨?_, hordered.start_lt.and hordered.pairwise, ?_, ?_, ?_⟩
  · intro t ht
    exact ⟨hordered.length_pos t ht, stop_le_length_of_mem_tokens ht⟩
  · intro i c hi hc
    obtain ⟨front, rest, rfl, rfl⟩ := exists_split_of_getElem? hi
    obtain ⟨t, ht, hcovers⟩ := exists_covers_of_beginsLexeme front (beginsLexeme_of_isFirst rest hc)
    exact ⟨t, ⟨ht, hcovers⟩, fun u hu => eq_of_covers hordered.pairwise hu.1 ht hu.2 hcovers⟩
  · intro i hi
    have hcomment : ∀ d, d = '/' ∨ d = '*' → ¬ ['/', d] <+: contents.drop i := by
      rintro d hd ⟨rest, hrest⟩
      obtain ⟨front, rest', hcontents, rfl⟩ : ∃ front rest', contents = front ++ '/' :: rest' ∧
          front.length = i := exists_split_of_getElem? (by simp [← List.head?_drop, ← hrest])
      obtain rfl : d :: rest = rest' := by simpa [hcontents] using hrest
      subst hcontents
      exact not_beginsLexeme_of_not_covers hi (.inl ⟨rfl, by simpa using hd⟩)
    exact ⟨hcomment '/' (.inl rfl), hcomment '*' (.inr rfl)⟩
  · intro offset
    have hlookUp := hordered.lookUp_eq_kindAt offset
    refine ⟨hlookUp, ?_, ?_⟩
    · intro t ht hcovers
      refine ⟨hlookUp.trans (kindAt_eq_of_mem ht hcovers), fun u hu huc => ?_⟩
      exact eq_of_covers hordered.pairwise hu ht huc hcovers
    · intro hnone
      exact hlookUp.trans (Token.kindAt_eq_other_of_forall hnone)

end ParenLint.Swift
