import ParenLint.Proofs.Rule.Substitution
import ParenLint.Proofs.Swift.Replacement

/-!
# A match and the text around it

The rest of a text in which a match lies is cut at the places where unwrapping changes it. What
unwrapping puts there can stand for what it takes away, and up to the condition that is kept the
scans of both texts have the same parts. They go on to do so unless a token reaches over the closing
parenthesis.
-/

namespace ParenLint

open ParenLint.Swift ParenLint.Text

variable {contents front rest : List Char} {m : Match}

/-- Unwrapping a match deletes the character at the offset: it stands between the keyword and the
condition, or between the condition and the brace. -/
def Match.Deletes (m : Match) (offset : Nat) : Prop :=
  (m.start + 2 ≤ offset ∧ offset ≤ m.opening) ∨ (m.closing ≤ offset ∧ offset + 1 < m.stop)

/-- No line break that unwrapping the match deletes ends a line with a stray backtick. -/
def Match.JoinsNoBacktick (m : Match) (contents : List Char) : Prop :=
  ∀ offset, m.Deletes offset → contents[offset]? = some '\n' → ¬ BehindBacktick contents offset

/-- Where a line break in a stretch is deleted, there is no stray backtick before the stretch. -/
lemma Match.JoinsNoBacktick.not_behindBacktick (h : m.JoinsNoBacktick contents)
    {stretch : List Char} (hcontents : contents = front ++ stretch ++ rest) (hline : '\n' ∈ stretch)
    (hdeletes : ∀ k : Nat, stretch[k]? = some '\n' → m.Deletes (front.length + k)) :
    ¬ BehindBacktick contents front.length := by
  intro hbehind
  obtain ⟨kept, joined, rfl, hkept⟩ := List.eq_append_cons_of_mem hline
  have hdelete := hdeletes kept.length (by simp)
  have hcut : contents = front ++ kept ++ '\n' :: (joined ++ rest) := by
    simp [hcontents]
  have hoffset : contents[front.length + kept.length]? = some '\n' := by
    rw [hcut, ← List.length_append, List.getElem?_append_right (Nat.le_refl _)]
    simp
  refine h _ hdelete hoffset ?_
  rw [← List.length_append]
  rw [hcut] at hbehind ⊢
  exact hbehind.append hkept

/-! ### A match in the rest of a text -/

/-- The rest of a text in which a match has been found, cut at the places where unwrapping changes
it. -/
structure MatchIn (contents front rest : List Char) (m : Match)
    (lead gap body gap' after : List Char) : Prop where
  contents_eq : contents = front ++ rest
  rest_eq : rest = lead ++ ("if".toList ++ ((gap ++ ['(']) ++
    (body ++ ((')' :: gap' ++ ['{']) ++ after))))
  start_eq : m.start = (front ++ lead).length
  opening_eq : m.opening = m.start + 2 + gap.length
  closing_eq : m.closing = m.opening + 1 + body.length
  stop_eq : m.stop = m.closing + 2 + gap'.length
  captured_eq : m.captured = some body
  gap_blank : ∀ c ∈ gap, isBlank c = true
  gap'_blank : ∀ c ∈ gap', isBlank c = true

/-- A match that begins in the rest of the text lies there as a whole. -/
lemma WrappedIf.exists_matchIn {before gap body gap' after : List Char}
    (h : WrappedIf contents m before gap body gap' after) (hcontents : contents = front ++ rest)
    (hle : front.length ≤ m.start) :
    ∃ lead, MatchIn contents front rest m lead gap body gap' after := by
  have hprefix : front <+: before := by
    refine List.prefix_of_prefix_length_le ⟨rest, hcontents.symm⟩ ?_ (h.start_eq ▸ hle)
    exact ⟨m.text ++ after, by rw [h.contents_eq, List.append_assoc]⟩
  obtain ⟨lead, rfl⟩ := hprefix
  refine ⟨lead, hcontents, ?_, h.start_eq, ?_, h.closing_eq, ?_, h.captured_eq, h.gap_blank,
    h.gap'_blank⟩
  · have hrest := hcontents.symm.trans h.contents_eq
    simp only [h.text_eq, List.append_assoc, List.append_cancel_left_eq] at hrest
    simpa using hrest
  · rw [h.opening_eq, h.start_eq]
    omega
  · rw [h.closing_eq, h.opening_eq, h.stop_eq]
    omega

namespace MatchIn

variable {lead gap body gap' after : List Char}

lemma closing_eq_length (h : MatchIn contents front rest m lead gap body gap' after) :
    m.closing = (front ++ lead ++ ("if".toList ++ (gap ++ ['('])) ++ body).length := by
  simp [h.closing_eq, h.opening_eq, h.start_eq]
  omega

lemma stop_eq_length (h : MatchIn contents front rest m lead gap body gap' after) :
    m.stop = (front ++ lead ++ ("if".toList ++ (gap ++ ['('])) ++ body ++
      (')' :: gap' ++ ['{'])).length := by
  rw [h.stop_eq, h.closing_eq_length]
  simp
  omega

lemma contents_eq_append (h : MatchIn contents front rest m lead gap body gap' after) :
    contents = front ++ lead ++ ("if".toList ++ (gap ++ ['('])) ++ body ++
      (')' :: gap' ++ ['{']) ++ after := by
  rw [h.contents_eq, h.rest_eq]
  simp only [List.append_assoc]

lemma contents_eq_append_body (h : MatchIn contents front rest m lead gap body gap' after) :
    contents = front ++ lead ++ ("if".toList ++ (gap ++ ['('])) ++
      (body ++ ((')' :: gap' ++ ['{']) ++ after)) := by
  rw [h.contents_eq, h.rest_eq]
  simp only [List.append_assoc]

lemma substitute_cons (h : MatchIn contents front rest m lead gap body gap' after)
    (ms : List Match) : substitute front.length (m :: ms) rest = lead ++ ("if".toList ++ ([' '] ++
      (body ++ ([' ', '{'] ++ substitute m.stop ms after)))) := by
  have hstart : m.start - front.length = lead.length := by
    rw [h.start_eq, List.length_append, Nat.add_sub_cancel_left]
  have hstop : m.stop - front.length = (lead ++ ("if".toList ++ ((gap ++ ['(']) ++
      (body ++ (')' :: gap' ++ ['{']))))).length := by
    simp [h.stop_eq, h.closing_eq, h.opening_eq, h.start_eq]
    omega
  have hrest : rest = (lead ++ ("if".toList ++ ((gap ++ ['(']) ++
      (body ++ (')' :: gap' ++ ['{']))))) ++ after := by
    rw [h.rest_eq]
    simp
  have hdrop : rest.drop (m.stop - front.length) = after := by
    rw [hstop, hrest, List.drop_left]
  rw [substitute, hdrop, hstart, h.rest_eq, List.take_left, Match.replacement, h.captured_eq]
  simp

/-- No character that opens, closes or escapes a literal stands where unwrapping changes a text. -/
lemma literal_not_mem (h : MatchIn contents front rest m lead gap body gap' after) {c : Char}
    (hc : c ∈ ['"', '\\', '\x60']) :
    c ∉ "if".toList ++ (gap ++ ['(']) ∧ c ∉ ')' :: gap' ++ ['{'] := by
  have hblank : ∀ d ∈ ['"', '\\', '\x60'], isBlank d = false :=
    List.all_iff_forall_prop.mp rfl
  have hfixed : ∀ d ∈ ['"', '\\', '\x60'], d ∉ "if()\x7b".toList :=
    List.all_iff_forall_prop.mp rfl
  have hgap : c ∉ gap := not_mem_of_isBlank h.gap_blank (hblank c hc)
  have hgap' : c ∉ gap' := not_mem_of_isBlank h.gap'_blank (hblank c hc)
  have hc := hfixed c hc
  simp only [String.reduceToList, List.mem_cons, List.not_mem_nil, or_false, not_or] at hc
  simp [hgap, hgap', hc]

/-- What follows the body of a match can be replaced by what unwrapping puts there, if that is so
behind the match. -/
lemma replaces_closing (h : MatchIn contents front rest m lead gap body gap' after)
    (hjoins : m.JoinsNoBacktick contents) {after' : List Char}
    (hafter : Replaces contents m.stop after after') :
    Replaces contents m.closing ((')' :: gap' ++ ['{']) ++ after) ([' ', '{'] ++ after') := by
  have hclosing := h.closing_eq_length
  have hcontents := h.contents_eq_append
  have hfixed : ∀ c ∈ ['"', '\\', '\x60'], c ∉ [' ', '{'] :=
    List.all_iff_forall_prop.mp rfl
  rw [h.stop_eq_length] at hafter
  rw [hclosing]
  refine hafter.gap [' ', '{'] hcontents (fun c hc => ⟨(h.literal_not_mem hc).2, hfixed c hc⟩)
    (by decide) fun hline => hjoins.not_behindBacktick hcontents hline fun k hk => .inr ?_
  have hlt : k < gap'.length + 1 := by
    by_contra hle
    rw [List.getElem?_append_right (by simpa using hle)] at hk
    simpa using List.mem_of_getElem? hk
  rw [← hclosing, h.stop_eq]
  omega

/-- What follows the start of a match can be replaced by what unwrapping puts there, if that is so
behind its body. -/
lemma replaces_start (h : MatchIn contents front rest m lead gap body gap' after)
    (hjoins : m.JoinsNoBacktick contents) {after' : List Char}
    (hclosing : Replaces contents m.closing ((')' :: gap' ++ ['{']) ++ after)
      ([' ', '{'] ++ after')) :
    Replaces contents m.start
      ("if".toList ++ ((gap ++ ['(']) ++ (body ++ ((')' :: gap' ++ ['{']) ++ after))))
      ("if".toList ++ ([' '] ++ (body ++ ([' ', '{'] ++ after')))) := by
  have hcut := h.contents_eq_append_body
  have hbody : Replaces contents (front ++ lead ++ ("if".toList ++ (gap ++ ['(']))).length
      (body ++ ((')' :: gap' ++ ['{']) ++ after)) (body ++ ([' ', '{'] ++ after')) := by
    rw [h.closing_eq_length] at hclosing
    exact hclosing.append (by rw [hcut]; simp) alike_parenthesis
  have hfixed : ∀ c ∈ ['"', '\\', '\x60'], c ∉ "if".toList ++ [' '] :=
    List.all_iff_forall_prop.mp rfl
  rw [h.start_eq]
  simp only [← List.append_assoc "if".toList]
  refine hbody.gap ("if".toList ++ [' ']) hcut
    (fun c hc => ⟨(h.literal_not_mem hc).1, hfixed c hc⟩) (by decide)
    fun hline => hjoins.not_behindBacktick hcut hline fun k hk => .inl ?_
  have hlt : k < gap.length + 3 := by
    have hlength := (List.getElem?_eq_some_iff.mp hk).1
    simp at hlength
    omega
  have hge : 2 ≤ k := by
    rcases k with _ | _ | k
    · simp at hk
    · simp at hk
    · omega
  rw [h.opening_eq, h.start_eq]
  omega

/-- The rest in which a match lies can be replaced by what unwrapping puts there, if that is so from
the start of the match on. -/
lemma replaces_rest (h : MatchIn contents front rest m lead gap body gap' after)
    {after' : List Char} (hstart : Replaces contents m.start
      ("if".toList ++ ((gap ++ ['(']) ++ (body ++ ((')' :: gap' ++ ['{']) ++ after))))
      ("if".toList ++ ([' '] ++ (body ++ ([' ', '{'] ++ after'))))) :
    Replaces contents front.length rest
      (lead ++ ("if".toList ++ ([' '] ++ (body ++ ([' ', '{'] ++ after'))))) := by
  have hcut : contents = front ++ lead ++
      ("if".toList ++ ((gap ++ ['(']) ++ (body ++ ((')' :: gap' ++ ['{']) ++ after)))) := by
    rw [h.contents_eq, h.rest_eq]
    simp only [List.append_assoc]
  rw [h.start_eq] at hstart
  rw [h.rest_eq]
  exact hstart.append hcut alike_letter

end MatchIn

/-! ### The scans of both texts -/

namespace MatchIn

variable {lead gap body gap' after : List Char} {ps : List Part}

lemma gap_isInert (h : MatchIn contents front rest m lead gap body gap' after) :
    ∀ c ∈ gap ++ ['('], IsInert c := by
  intro c hc
  rw [List.mem_append, List.mem_singleton] at hc
  rcases hc with hc | rfl
  · exact isInert_of_isBlank (h.gap_blank c hc)
  · decide +kernel

lemma gap'_isInert (h : MatchIn contents front rest m lead gap body gap' after) :
    ∀ c ∈ ')' :: gap' ++ ['{'], IsInert c := by
  intro c hc
  simp only [List.mem_append, List.mem_cons, List.not_mem_nil, or_false] at hc
  rcases hc with (rfl | hc) | rfl
  · decide +kernel
  · exact isInert_of_isBlank (h.gap'_blank c hc)
  · decide +kernel

/-- The name that begins with the keyword ends behind it. -/
lemma exists_gap_cons (h : MatchIn contents front rest m lead gap body gap' after) :
    ∃ c g, gap ++ ['('] = c :: g ∧ isNameChar c = false :=
  exists_cons_of_blanks h.gap_blank []

lemma scan_keyword (h : MatchIn contents front rest m lead gap body gap' after)
    (cs : List Char) : Scan "if".toList ((gap ++ ['(']) ++ cs) [.token .keyword "if".toList] := by
  obtain ⟨c, g, hgap, hc⟩ := h.exists_gap_cons
  rw [hgap]
  exact .single_token (lexeme?_if hc _)

/-- No token reaches into a match from before it. -/
lemma not_reaches_start (h : MatchIn contents front rest m lead gap body gap' after)
    (hkeyword : Token.kindAt (tokens contents) m.start = .keyword) :
    ∀ t ∈ tokens contents, ¬ (t.start < m.start ∧ m.start < t.stop) := by
  rintro t ht ⟨hlt, hgt⟩
  obtain ⟨c, g, hgap, hc⟩ := h.exists_gap_cons
  have hcontents : contents = front ++ lead ++ ("if".toList ++ c :: (g ++
      (body ++ ((')' :: gap' ++ ['{']) ++ after)))) := by
    rw [h.contents_eq_append, hgap]
    simp only [List.append_assoc, List.cons_append]
  rw [h.start_eq, hcontents] at hkeyword
  have hu := mem_tokens_of_kindAt .if hc hkeyword
  rw [← h.start_eq] at hu
  have htc : t.Covers m.start := ⟨Int.ofNat_le.mpr (Nat.le_of_lt hlt), Int.ofNat_lt.mpr hgt⟩
  have heq := eq_of_covers (pairwise_tokensFrom 0 contents) ht (hcontents ▸ hu) htc
    (covers_start_of_mem_tokensFrom (hcontents ▸ hu))
  rw [heq] at hlt
  exact Nat.lt_irrefl _ hlt

/-- The text up to a match can be scanned. -/
lemma exists_scan_lead (h : MatchIn contents front rest m lead gap body gap' after)
    (hfront : Scan front rest ps) (hkeyword : Token.kindAt (tokens contents) m.start = .keyword) :
    ∃ ls, Scan lead ("if".toList ++ ((gap ++ ['(']) ++
      (body ++ ((')' :: gap' ++ ['{']) ++ after)))) ls := by
  apply Scan.exists_scan lead _ front.length
  intro t ht
  rw [← List.length_append, ← h.start_eq]
  apply h.not_reaches_start hkeyword t
  rw [h.contents_eq, tokens, hfront.tokensFrom_eq, Nat.zero_add, h.rest_eq]
  exact List.mem_append_right _ ht

/-- Up to the body of a match, the text and what unwrapping makes of it have the same parts. -/
lemma exists_scan_opening (h : MatchIn contents front rest m lead gap body gap' after)
    (hfront : Scan front rest ps) (hkeyword : Token.kindAt (tokens contents) m.start = .keyword)
    {after' : List Char} (hstart : Replaces contents m.start
      ("if".toList ++ ((gap ++ ['(']) ++ (body ++ ((')' :: gap' ++ ['{']) ++ after))))
      ("if".toList ++ ([' '] ++ (body ++ ([' ', '{'] ++ after'))))) :
    ∃ qs qs', Scan (lead ++ ("if".toList ++ (gap ++ ['('])))
        (body ++ ((')' :: gap' ++ ['{']) ++ after)) qs ∧
      Scan (lead ++ ("if".toList ++ [' '])) (body ++ ([' ', '{'] ++ after')) qs' ∧
      qs'.filter Part.isFirm = qs.filter Part.isFirm := by
  obtain ⟨ls, hlead⟩ := h.exists_scan_lead hfront hkeyword
  have hlead' : Scan lead ("if".toList ++ ([' '] ++ (body ++ ([' ', '{'] ++ after')))) ls := by
    rw [h.rest_eq] at hfront
    rw [h.contents_eq, h.rest_eq, h.start_eq] at hstart
    exact hfront.replace_rest hlead hstart alike_letter
  have hblank : ∀ c ∈ [' '], IsInert c := List.all_iff_forall_prop.mp (by decide +kernel)
  have hold : Scan (lead ++ ("if".toList ++ (gap ++ ['('])))
      (body ++ ((')' :: gap' ++ ['{']) ++ after))
      (ls ++ ([.token .keyword "if".toList] ++ (gap ++ ['(']).map Part.loose)) := by
    refine Scan.append ?_ ((h.scan_keyword _).append (.of_isInert h.gap_isInert _))
    rwa [List.append_assoc]
  have hnew : Scan (lead ++ ("if".toList ++ [' '])) (body ++ ([' ', '{'] ++ after'))
      (ls ++ ([.token .keyword "if".toList] ++ [' '].map Part.loose)) := by
    refine Scan.append ?_ (Scan.append (.single_token (lexeme?_if rfl _)) (.of_isInert hblank _))
    rwa [List.append_assoc]
  refine ⟨_, _, hold, hnew, ?_⟩
  have hgap : ∀ c ∈ gap ++ ['('], isFirmChar c = false := by
    intro c hc
    rw [List.mem_append, List.mem_singleton] at hc
    rcases hc with hc | rfl
    · simp [isFirmChar, h.gap_blank c hc]
    · rfl
  simp only [List.filter_append, Part.filter_isFirm_map_loose hgap]
  rfl

/-- If the body of a match can be scanned, no token covers the closing parenthesis, and up to the
end of the match the text and what unwrapping makes of it have the same parts. -/
lemma exists_scan_closing {bs : List Part}
    (h : MatchIn contents front rest m lead gap body gap' after)
    (hbefore : Scan (front ++ lead ++ ("if".toList ++ (gap ++ ['('])))
      (body ++ ((')' :: gap' ++ ['{']) ++ after)) ps)
    (hbody : Scan body ((')' :: gap' ++ ['{']) ++ after) bs) {after' : List Char}
    (hclosing : Replaces contents m.closing ((')' :: gap' ++ ['{']) ++ after)
      ([' ', '{'] ++ after')) :
    (∀ t ∈ tokens contents, ¬ t.Covers m.closing) ∧ ∃ qs qs',
      Scan (body ++ (')' :: gap' ++ ['{'])) after qs ∧ Scan (body ++ [' ', '{']) after' qs' ∧
      qs'.filter Part.isFirm = qs.filter Part.isFirm := by
  rw [h.contents_eq_append_body, h.closing_eq_length] at hclosing ⊢
  have hbody' : Scan body ([' ', '{'] ++ after') bs :=
    hbefore.replace_rest hbody hclosing alike_parenthesis
  constructor
  · rw [← List.append_assoc _ body]
    exact (hbefore.append hbody).not_covers (by decide +kernel)
  · have hend : ∀ c ∈ [' ', '{'], IsInert c :=
      List.all_iff_forall_prop.mp (by decide +kernel)
    refine ⟨_, _, hbody.append (.of_isInert h.gap'_isInert _),
      hbody'.append (.of_isInert hend _), ?_⟩
    have hgap' : ∀ c ∈ ')' :: gap', isFirmChar c = false := by
      intro c hc
      obtain rfl | hc := List.mem_cons.mp hc
      · rfl
      · simp [isFirmChar, h.gap'_blank c hc]
    rw [List.map_append, List.filter_append, List.filter_append, List.filter_append,
      Part.filter_isFirm_map_loose hgap']
    rfl

/-- A token that begins in the body and reaches over the closing parenthesis is changed. -/
lemma otherTokens_of_reaches {lead' covered : List Char} {x : Char} {ls : List Part}
    {kind : TokenKind} {n : Nat}
    (h : MatchIn contents front rest m lead gap (lead' ++ x :: covered) gap' after)
    (hbefore : Scan (front ++ lead ++ ("if".toList ++ (gap ++ ['('])))
      (lead' ++ x :: covered ++ ((')' :: gap' ++ ['{']) ++ after)) ps)
    (hscan : Scan lead' (x :: covered ++ ((')' :: gap' ++ ['{']) ++ after)) ls)
    (hlexeme : lexeme? (x :: covered ++ ((')' :: gap' ++ ['{']) ++ after)) = some (kind, n))
    (hreach : (x :: covered).length < n) {after' : List Char}
    (hclosing : Replaces contents m.closing ((')' :: gap' ++ ['{']) ++ after)
      ([' ', '{'] ++ after')) :
    (∃ t ∈ tokens contents, t.Covers m.closing) ∧
      OtherTokens (lead' ++ x :: covered ++ ((')' :: gap' ++ ['{']) ++ after))
        (lead' ++ x :: covered ++ ([' ', '{'] ++ after')) := by
  have hcontents := h.contents_eq_append_body
  have hlength := h.closing_eq_length
  generalize front ++ lead ++ ("if".toList ++ (gap ++ ['('])) = before at *
  rw [List.append_assoc lead'] at hbefore hcontents ⊢
  rw [List.append_assoc lead']
  have hsum : m.closing = (before ++ lead').length + (x :: covered).length := by
    rw [hlength, ← List.append_assoc, List.length_append]
  rw [hcontents, hlength] at hclosing
  constructor
  · refine ⟨⟨(before ++ lead').length, n, kind⟩, ?_, ?_, ?_⟩
    · rw [hcontents, ← List.append_assoc before, tokens, (hbefore.append hscan).tokensFrom_eq,
        tokensFrom_of_some hlexeme, Nat.zero_add]
      exact List.mem_append_right _ List.mem_cons_self
    · rw [hsum]
      exact Int.ofNat_le.mpr (Nat.le_add_right _ _)
    · rw [hsum]
      exact Int.ofNat_lt.mpr (Nat.add_lt_add_left hreach _)
  · have hscan' : Scan lead' (x :: covered ++ ([' ', '{'] ++ after')) ls :=
      Scan.replace (x :: covered) hbefore hscan hclosing alike_parenthesis
    have hname : ClosesName (covered ++ ((')' :: gap' ++ ['{']) ++ after)) →
        ClosesName (covered ++ ([' ', '{'] ++ after')) := by
      have hsplit : before ++ (lead' ++ x :: covered) = before ++ lead' ++ [x] ++ covered := by simp
      rw [hsplit] at hclosing
      exact (hclosing.append (by simp) alike_parenthesis).closesName'
    obtain ⟨kind, kind', text, text', qs, qs', hold, hnew, hne⟩ :=
      exists_other_token hlexeme hreach alike_parenthesis (by decide) hname
    have hother : OtherTokens (x :: covered ++ ((')' :: gap' ++ ['{']) ++ after))
        (x :: covered ++ ([' ', '{'] ++ after')) := by
      refine ⟨_, _, hold, hnew, fun heq => hne ?_⟩
      exact congrArg Prod.snd (List.cons.inj heq).1
    exact hother.append hscan hscan' rfl

/-- Either no token covers the closing parenthesis, and up to the end of the match the text and what
unwrapping makes of it have the same parts, or a token reaches over it and is changed. -/
lemma scan_body_or_otherTokens (h : MatchIn contents front rest m lead gap body gap' after)
    (hbefore : Scan (front ++ lead ++ ("if".toList ++ (gap ++ ['('])))
      (body ++ ((')' :: gap' ++ ['{']) ++ after)) ps) {after' : List Char}
    (hclosing : Replaces contents m.closing ((')' :: gap' ++ ['{']) ++ after)
      ([' ', '{'] ++ after')) :
    ((∀ t ∈ tokens contents, ¬ t.Covers m.closing) ∧ ∃ qs qs',
      Scan (body ++ (')' :: gap' ++ ['{'])) after qs ∧ Scan (body ++ [' ', '{']) after' qs' ∧
      qs'.filter Part.isFirm = qs.filter Part.isFirm) ∨
    ((∃ t ∈ tokens contents, t.Covers m.closing) ∧
      OtherTokens (body ++ ((')' :: gap' ++ ['{']) ++ after))
        (body ++ ([' ', '{'] ++ after'))) := by
  obtain ⟨bs, hbody⟩ | ⟨lead', x, covered, ls, kind, n, rfl, hscan, hlexeme, hreach⟩ :=
    Scan.exists_scan_or_reaches body ((')' :: gap' ++ ['{']) ++ after)
  · left
    exact h.exists_scan_closing hbefore hbody hclosing
  · right
    exact h.otherTokens_of_reaches hbefore hscan hlexeme hreach hclosing

end MatchIn

end ParenLint
