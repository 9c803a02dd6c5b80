import ParenLint.Proofs.Swift.Locality

/-!
# Replacing the rest of a text

Tokens in front of a stretch that is replaced stay as they are if the replacement begins like the
stretch and closes no literal that was not closed before. For names between backticks the line is
what counts: a stray backtick must not get another one on its line.
-/

namespace ParenLint.Swift

variable {contents front mid covered rest rest' tail tail' : List Char} {c d : Char} {p : Nat}

/-! ### Stray backticks -/

/-- The line of the offset `p` has a backtick outside all tokens before it. -/
def BehindBacktick (contents : List Char) (p : Nat) : Prop :=
  ∃ i < p, contents[i]? = some '\x60' ∧ (∀ t ∈ tokens contents, ¬ t.Covers i) ∧
    ∀ k, i < k → k < p → contents[k]? ≠ some '\n'

/-- What stands behind a backtick stays behind it up to the next line break. -/
lemma BehindBacktick.append (h : BehindBacktick (front ++ mid ++ rest) front.length)
    (hmid : '\n' ∉ mid) : BehindBacktick (front ++ mid ++ rest) (front ++ mid).length := by
  obtain ⟨i, hi, hbacktick, hloose, hline⟩ := h
  rw [List.length_append]
  refine ⟨i, by omega, hbacktick, hloose, ?_⟩
  intro k hik hk
  by_cases hfront : k < front.length
  · exact hline k hik hfront
  · rw [List.append_assoc, List.getElem?_append_right (by omega),
      List.getElem?_append_left (by omega)]
    exact fun hk => hmid (List.mem_of_getElem? hk)

/-- A loose backtick that a scan finds is outside all tokens. -/
lemma Scan.behindBacktick {ps qs : List Part}
    (h : Scan front (covered ++ rest) (ps ++ .loose '\x60' :: qs))
    (hline : '\n' ∉ Part.texts qs ++ covered) :
    BehindBacktick (front ++ (covered ++ rest)) (front ++ covered).length := by
  have htokens := h.tokensFrom_eq 0
  have htext := h.texts_eq
  rw [Part.texts_append, Part.texts_cons] at htext
  have hlength : front.length = (Part.texts ps).length + (1 + (Part.texts qs).length) := by
    simp only [← htext, Part.text, List.length_append, List.length_singleton]
  refine ⟨(Part.texts ps).length, ?_, ?_, ?_, ?_⟩
  · rw [List.length_append]
    omega
  · rw [← htext]
    simp [Part.text]
  · intro t ht hcovers
    rw [tokens, htokens, Part.tokensAt_append] at ht
    have hle := hcovers.1
    have hlt := hcovers.2
    rw [List.mem_append, List.mem_append] at ht
    rcases ht with (ht | ht) | ht
    · have hstop := Part.stop_le_of_mem_tokensAt ht
      omega
    · have hqs : t ∈ Part.tokensAt (0 + (Part.texts ps).length + 1) qs := ht
      have hstart := Part.le_start_of_mem_tokensAt hqs
      omega
    · have hstart := le_start_of_mem_tokensFrom ht
      omega
  · intro k hk hk'
    rw [List.length_append] at hk'
    have hsplit : front ++ (covered ++ rest) =
        (Part.texts ps ++ ['\x60']) ++ ((Part.texts qs ++ covered) ++ rest) := by
      simp [← htext, Part.text]
    rw [hsplit, List.getElem?_append_right (by simp; omega), List.getElem?_append_left]
    · exact fun hk => hline (List.mem_of_getElem? hk)
    · simp
      omega

/-! ### Rests that close the same literals -/

/-- Behind the offset `p` of `contents`, `rest'` can stand for `rest`: it closes the same literals,
as far as they have been left open before. -/
structure Replaces (contents : List Char) (p : Nat) (rest rest' : List Char) : Prop where
  closesString : ClosesString rest' → ClosesString rest
  closesName : BehindBacktick contents p → ClosesName rest' → ClosesName rest
  closesName' : ClosesName rest → ClosesName rest'

lemma Replaces.refl (contents : List Char) (p : Nat) (rest : List Char) :
    Replaces contents p rest rest :=
  ⟨id, fun _ => id, id⟩

lemma closesString_cons {x : Char} (hquote : x ≠ '"') (hescape : x ≠ '\\') (cs : List Char) :
    ClosesString (x :: cs) ↔ ClosesString cs := by
  rw [ClosesString, ClosesString, multilineStringRest?_cons hescape, if_neg (by simp [hquote]),
    Option.isSome_map]

lemma closesString_append {gap : List Char} (hquote : '"' ∉ gap) (hescape : '\\' ∉ gap)
    (cs : List Char) : ClosesString (gap ++ cs) ↔ ClosesString cs := by
  induction gap with
  | nil => rfl
  | cons x gap ih =>
    simp only [List.mem_cons, not_or] at hquote hescape
    rw [List.cons_append, closesString_cons (Ne.symm hquote.1) (Ne.symm hescape.1),
      ih hquote.2 hescape.2]

lemma forall_isQuotedNameChar {gap : List Char} (hbacktick : '\x60' ∉ gap) (hline : '\n' ∉ gap) :
    ∀ x ∈ gap, isQuotedNameChar x = true := by
  intro x hx
  have hne : x ≠ '\x60' := fun heq => hbacktick (heq ▸ hx)
  have hne' : x ≠ '\n' := fun heq => hline (heq ▸ hx)
  simp [isQuotedNameChar, hne, hne']

lemma not_closesName_append {gap : List Char} (hbacktick : '\x60' ∉ gap) (hline : '\n' ∈ gap)
    (cs : List Char) : ¬ ClosesName (gap ++ cs) := by
  rw [closesName_append_of_mem hline rfl, ClosesName]
  intro hhead
  exact hbacktick ((List.dropWhile_suffix isQuotedNameChar).subset (List.mem_of_head? hhead))

/-- Stretches without quotes, backslashes and backticks can be exchanged. A line break can be left
out where there is no stray backtick before it on its line. -/
lemma Replaces.gap {gap : List Char} (h : Replaces contents (front ++ gap).length rest rest')
    (gap' : List Char) (hcontents : contents = front ++ gap ++ tail)
    (hgap : ∀ c ∈ ['"', '\\', '\x60'], c ∉ gap ∧ c ∉ gap') (hgap' : '\n' ∉ gap')
    (hline : '\n' ∈ gap → ¬ BehindBacktick contents front.length) :
    Replaces contents front.length (gap ++ rest) (gap' ++ rest') := by
  obtain ⟨hquote, hquote'⟩ := hgap '"' (by simp)
  obtain ⟨hescape, hescape'⟩ := hgap '\\' (by simp)
  obtain ⟨hbacktick, hbacktick'⟩ := hgap '\x60' (by simp)
  have hname' := closesName_append_of_forall (forall_isQuotedNameChar hbacktick' hgap') rest'
  refine ⟨?_, ?_, ?_⟩
  · rw [closesString_append hquote hescape, closesString_append hquote' hescape']
    exact h.closesString
  · intro hbehind hcloses
    have hkept : '\n' ∉ gap := fun hmem => hline hmem hbehind
    rw [closesName_append_of_forall (forall_isQuotedNameChar hbacktick hkept)]
    subst hcontents
    exact h.closesName (hbehind.append hkept) (hname'.mp hcloses)
  · intro hcloses
    have hkept : '\n' ∉ gap := fun hmem => not_closesName_append hbacktick hmem rest hcloses
    rw [closesName_append_of_forall (forall_isQuotedNameChar hbacktick hkept)] at hcloses
    exact hname'.mpr (h.closesName' hcloses)

lemma Replaces.closesString_tail (h : Replaces contents p (c :: tail) (d :: tail'))
    (halike : Alike c d) : ClosesString tail' → ClosesString tail := by
  have htail := closesString_cons (halike.plain.ne (by decide)) (halike.plain.ne (by decide)) tail
  have htail' :=
    closesString_cons (halike.plain'.ne (by decide)) (halike.plain'.ne (by decide)) tail'
  exact fun hcloses => htail.mp (h.closesString (htail'.mpr hcloses))

/-- Rests that begin alike can be exchanged in a longer rest. -/
lemma Replaces.append (h : Replaces contents (front ++ mid).length (c :: tail) (d :: tail'))
    (hcontents : contents = front ++ mid ++ c :: tail) (halike : Alike c d) :
    Replaces contents front.length (mid ++ c :: tail) (mid ++ d :: tail') := by
  have hstring : ClosesString (mid ++ d :: tail') → ClosesString (mid ++ c :: tail) := by
    intro hcloses
    rcases multilineStringRest?_within halike (h.closesString_tail halike) mid with
      heq | ⟨n, heq, -⟩
    · rwa [ClosesString, heq] at hcloses
    · simp [ClosesString, heq]
  by_cases hmid : ∀ x ∈ mid, isQuotedNameChar x = true
  · have hline : '\n' ∉ mid := fun hmem => by simpa [isQuotedNameChar] using hmid _ hmem
    have hname := closesName_append_of_forall hmid
    subst hcontents
    refine ⟨hstring, ?_, ?_⟩
    · intro hbehind hcloses
      exact (hname _).mpr (h.closesName (hbehind.append hline) ((hname _).mp hcloses))
    · intro hcloses
      exact (hname _).mpr (h.closesName' ((hname _).mp hcloses))
  · obtain ⟨x, hx, hend⟩ : ∃ x ∈ mid, isQuotedNameChar x = false := by simpa using hmid
    have hname := closesName_append_of_mem hx hend
    exact ⟨hstring, fun _ hcloses => (hname _).mpr ((hname _).mp hcloses),
      fun hcloses => (hname _).mpr ((hname _).mp hcloses)⟩

/-- A scan of a stretch does not depend on what can be replaced somewhere behind it. -/
theorem Scan.replace {ps qs : List Part} (covered : List Char)
    (hfront : Scan front (mid ++ (covered ++ c :: tail)) ps)
    (hmid : Scan mid (covered ++ c :: tail) qs)
    (h : Replaces (front ++ (mid ++ (covered ++ c :: tail))) (front ++ (mid ++ covered)).length
      (c :: tail) (d :: tail')) (halike : Alike c d) : Scan mid (covered ++ d :: tail') qs := by
  have hstring := h.closesString_tail halike
  generalize hrest : covered ++ c :: tail = rest at hmid
  induction hmid generalizing front ps with
  | nil rest => exact .nil _
  | @token text mid rest kind qs hlexeme hscan ih =>
    subst hrest
    have htext : Scan text (mid ++ (covered ++ c :: tail)) [.token kind text] :=
      .single_token (by simpa using hlexeme)
    rw [List.append_assoc] at hfront
    have htail : Scan mid (covered ++ d :: tail') qs := by
      refine ih (hfront.append htext) ?_ rfl
      simpa only [List.append_assoc] using h
    refine .token ?_ htail
    have hassoc : ∀ cs, text ++ mid ++ (covered ++ cs) = text ++ (mid ++ covered) ++ cs := by simp
    rw [hassoc] at hlexeme ⊢
    exact lexeme?_eq_of_some halike hstring hlexeme
  | @loose x mid rest qs hlexeme hscan ih =>
    subst hrest
    have hone : Scan [x] (mid ++ (covered ++ c :: tail)) [.loose x] := .loose hlexeme (.nil _)
    have hassoc : ∀ cs, x :: (mid ++ (covered ++ cs)) = x :: (mid ++ covered) ++ cs := by simp
    have hbehind : x = '\x60' → '\n' ∉ mid ++ covered →
        BehindBacktick (front ++ (x :: mid ++ (covered ++ c :: tail)))
          (front ++ (x :: mid ++ covered)).length := by
      intro hx hline
      subst hx
      have hwhole := hfront.append (.loose hlexeme hscan)
      rw [← hscan.texts_eq] at hline
      simpa only [List.append_assoc] using hwhole.behindBacktick hline
    have htail : Scan mid (covered ++ d :: tail') qs := by
      have hnext : Scan (front ++ [x]) (mid ++ (covered ++ c :: tail)) (ps ++ [.loose x]) :=
        Scan.append hfront hone
      refine ih hnext ?_ rfl
      simpa only [List.append_assoc, List.cons_append, List.nil_append] using h
    refine .loose ?_ htail
    rw [hassoc] at hlexeme ⊢
    exact lexeme?_eq_none halike hstring hlexeme fun hx hline => h.closesName (hbehind hx hline)

lemma Scan.replace_rest {ps qs : List Part} (hfront : Scan front (mid ++ c :: tail) ps)
    (hmid : Scan mid (c :: tail) qs)
    (h : Replaces (front ++ (mid ++ c :: tail)) (front ++ mid).length (c :: tail) (d :: tail'))
    (halike : Alike c d) : Scan mid (d :: tail') qs :=
  Scan.replace [] hfront hmid (by rwa [List.append_nil]) halike

/-! ### A token that is changed -/

/-- Whether a lexeme begins is not changed by what stands behind its first characters. -/
lemma BeginsLexeme.replace {x : Char} (h : BeginsLexeme x (covered ++ c :: tail))
    (halike : Alike c d)
    (hname : ClosesName (covered ++ c :: tail) → ClosesName (covered ++ d :: tail')) :
    BeginsLexeme x (covered ++ d :: tail') := by
  have hslash : c ≠ '/' := halike.plain.ne (by decide)
  have hstar : c ≠ '*' := halike.plain.ne (by decide)
  have hfirst : (covered ++ d :: tail').takeWhile isQuotedNameChar ≠ [] ∨
      (covered ++ c :: tail).takeWhile isQuotedNameChar = [] := by
    cases covered with
    | nil =>
      have hd : d ≠ '\x60' := halike.plain'.ne (by decide)
      have hd' : d ≠ '\n' := halike.plain'.ne (by decide)
      exact .inl (by simp [isQuotedNameChar, hd, hd'])
    | cons y covered =>
      cases hy : isQuotedNameChar y with
      | true => exact .inl (by simp [hy])
      | false => exact .inr (by simp [hy])
  rcases h with ⟨hx, hnext⟩ | hx | hx | ⟨hx, hne, hcloses⟩ | ⟨hx, hnext⟩ | hx
  · cases covered with
    | nil => simp [hslash, hstar] at hnext
    | cons y covered => exact .inl ⟨hx, hnext⟩
  · exact .inr (.inl hx)
  · exact .inr (.inr (.inl hx))
  · exact .inr (.inr (.inr (.inl ⟨hx, hfirst.resolve_right hne, hname hcloses⟩)))
  · cases covered with
    | nil => exact .inr (.inr (.inr (.inr (.inl ⟨hx, by simpa [halike.nameStart_eq] using hnext⟩))))
    | cons y covered => exact .inr (.inr (.inr (.inr (.inl ⟨hx, hnext⟩))))
  · exact .inr (.inr (.inr (.inr (.inr hx))))

/-- If a character of a token is replaced by another one, the token there is another one. -/
theorem exists_other_token {x : Char} {kind : TokenKind} {n : Nat}
    (hlexeme : lexeme? (x :: covered ++ c :: tail) = some (kind, n))
    (hreach : (x :: covered).length < n) (halike : Alike c d) (hne : c ≠ d)
    (hname : ClosesName (covered ++ c :: tail) → ClosesName (covered ++ d :: tail')) :
    ∃ kind kind' text text' parts parts',
      Scan (x :: covered ++ c :: tail) [] (.token kind text :: parts) ∧
      Scan (x :: covered ++ d :: tail') [] (.token kind' text' :: parts') ∧ text' ≠ text := by
  have hbegins : BeginsLexeme x (covered ++ c :: tail) := by
    rw [← isSome_lexeme?_cons, ← List.cons_append, hlexeme]
    rfl
  have hsome := (isSome_lexeme?_cons _ _).mpr (hbegins.replace halike hname)
  rw [← List.cons_append, Option.isSome_iff_exists] at hsome
  obtain ⟨⟨kind', n'⟩, hlexeme'⟩ := hsome
  obtain ⟨parts, hscan⟩ := Scan.exists_scan_of_lexeme? hlexeme
  obtain ⟨parts', hscan'⟩ := Scan.exists_scan_of_lexeme? hlexeme'
  refine ⟨kind, kind', _, _, parts, parts', hscan, hscan', fun heq => hne ?_⟩
  -- The two texts differ at the replaced character.
  have hold : ((x :: covered ++ c :: tail).take n)[(x :: covered).length]? = some c := by
    rw [List.getElem?_take_of_lt hreach, List.getElem?_append_right (Nat.le_refl _)]
    simp
  rw [← heq, List.getElem?_take] at hold
  split_ifs at hold with hlt
  rw [List.getElem?_append_right (Nat.le_refl _)] at hold
  simpa using hold.symm

end ParenLint.Swift
