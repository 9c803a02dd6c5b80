import ParenLint.Proofs.Statement.Search

/-!
# Conditionals that an earlier one hides

Matches do not overlap, so a conditional is passed over if a match that began before it reaches over
it. Such a match exists exactly if the text before the conditional opens one of the same kind and
neither a comma nor an opening brace has ended its body.
-/

namespace ParenLint

open ParenLint.Text

variable {kind : StatementKind} {gap body ending text before after : List Char}

/-- The text opens a conditional of the given kind and is still inside its body. -/
def Opens (kind : StatementKind) (text : List Char) : Prop :=
  ∃ gap rest, text = kind.keyword.toList ++ gap ++ '(' :: rest ∧
    (∀ c ∈ gap, isBlank c = true) ∧ ∀ c ∈ rest, isBodyChar c = true

namespace Opens

/-- What opens a conditional takes the one behind it into its body. -/
lemma wraps_append (hopens : Opens kind before) (h : Wraps kind gap body ending text) :
    ∃ gap' body', Wraps kind gap' body' ending (before ++ text) := by
  obtain ⟨gap', rest, rfl, hgap', hrest⟩ := hopens
  refine ⟨gap', rest ++ kind.keyword.toList ++ gap ++ '(' :: body, ?_, hgap', ?_, h.ending⟩
  · simp [h.text_eq]
  · have hkeyword : ∀ c ∈ kind.keyword.toList, isBodyChar c = true :=
      List.all_eq_true.mp (by cases kind <;> rfl)
    have hgap : ∀ c ∈ gap, isBodyChar c = true := by
      intro c hc
      have hblank := h.gap_blank c hc
      have hne : ∀ d, isBlank d = false → c ≠ d := by
        rintro d hd rfl
        simp [hblank] at hd
      simp [isBodyChar, hne ',' rfl, hne '{' rfl]
    intro c hc
    simp only [List.mem_append, List.mem_cons] at hc
    obtain ((hc | hc) | hc) | rfl | hc := hc
    · exact hrest c hc
    · exact hkeyword c hc
    · exact hgap c hc
    · rfl
    · exact h.body_char c hc

/-- No opening brace has ended the body. -/
lemma brace_not_mem (hopens : Opens kind before) : '{' ∉ before := by
  obtain ⟨gap, rest, rfl, hgap, hrest⟩ := hopens
  have hkeyword : '{' ∉ kind.keyword.toList := by cases kind <;> decide
  intro hmem
  rw [List.append_assoc, List.mem_append, List.mem_append, List.mem_cons] at hmem
  rcases hmem with hmem | hmem | hmem | hmem
  · exact hkeyword hmem
  · exact not_mem_of_isBlank hgap rfl hmem
  · exact absurd hmem (by decide)
  · exact absurd (hrest _ hmem) (by decide)

end Opens

/-- The first letter of a keyword stands nowhere else in it. -/
lemma StatementKind.exists_keyword_eq_cons (kind : StatementKind) :
    ∃ k ks, kind.keyword.toList = k :: ks ∧ k ∉ ks ∧ k ≠ '(' ∧ isBlank k = false := by
  cases kind
  · exact ⟨'i', ['f'], rfl, by decide, by decide, rfl⟩
  · exact ⟨'f', ['o', 'r'], rfl, by decide, by decide, rfl⟩
  · exact ⟨'g', ['u', 'a', 'r', 'd'], rfl, by decide, by decide, rfl⟩
  · exact ⟨'s', ['w', 'i', 't', 'c', 'h'], rfl, by decide, by decide, rfl⟩
  · exact ⟨'w', ['h', 'i', 'l', 'e'], rfl, by decide, by decide, rfl⟩

/-- A keyword and blanks do not end in another such text with the same keyword. -/
lemma eq_nil_of_append_keyword_eq {gap' : List Char} (hgap' : ∀ c ∈ gap', isBlank c = true)
    (h : before ++ (kind.keyword.toList ++ gap) = kind.keyword.toList ++ gap') : before = [] := by
  obtain ⟨k, ks, hkeyword, hks, -, hblank⟩ := kind.exists_keyword_eq_cons
  cases before with
  | nil => rfl
  | cons c before =>
    rw [hkeyword] at h
    simp only [List.cons_append, List.cons.injEq] at h
    have hmem : k ∈ ks ++ gap' := by
      rw [← h.2]
      simp
    exact absurd hmem (by simpa [hks] using not_mem_of_isBlank hgap' hblank)

/-- A conditional that ends in another one of its kind opens before it. -/
lemma opens_of_wraps_append {gap' body' ending' : List Char} (hne : before ≠ [])
    (hwhole : Wraps kind gap' body' ending' (before ++ text))
    (h : Wraps kind gap body ending text) : Opens kind before := by
  have heq : (before ++ (kind.keyword.toList ++ gap ++ '(' :: body)) ++ ')' :: ending =
      (kind.keyword.toList ++ gap' ++ '(' :: body') ++ ')' :: ending' := by
    simpa [h.text_eq] using hwhole.text_eq
  -- The last closing parenthesis of both is the same, so one body is the end of the other.
  obtain ⟨heq, -⟩ := append_cons_inj_of_last h.ending.closeParen_not_mem
    hwhole.ending.closeParen_not_mem heq
  have hlead : '(' ∉ kind.keyword.toList ++ gap := h.not_mem_lead (by decide)
  have hlead' : '(' ∉ kind.keyword.toList ++ gap' := hwhole.not_mem_lead (by decide)
  by_cases hparen : '(' ∈ before
  · obtain ⟨lead, rest, rfl, hfirst⟩ := List.eq_append_cons_of_mem hparen
    rw [List.append_assoc, List.cons_append] at heq
    obtain ⟨rfl, rfl⟩ := append_cons_inj_of_first hfirst hlead' heq
    refine ⟨gap', rest, rfl, hwhole.gap_blank, ?_⟩
    intro c hc
    exact hwhole.body_char c (List.mem_append_left _ hc)
  · rw [← List.append_assoc] at heq
    have hfront : '(' ∉ before ++ (kind.keyword.toList ++ gap) := by
      simpa [hparen] using hlead
    obtain ⟨heq, -⟩ := append_cons_inj_of_first hfront hlead' heq
    exact absurd (eq_nil_of_append_keyword_eq hwhole.gap_blank heq) hne

/-- Of two conditionals of a kind that overlap in a text, the second is the end of the first. -/
lemma Wraps.eq_append_of_overlap {gap' body' ending' text' before' after' : List Char}
    (h : Wraps kind gap body ending text) (h' : Wraps kind gap' body' ending' text')
    (heq : before' ++ text' ++ after' = before ++ text ++ after)
    (hle : before'.length ≤ before.length) (hlt : before.length < before'.length + text'.length) :
    ∃ hidden, before = before' ++ hidden ∧ text' = hidden ++ text := by
  obtain ⟨front, rfl, hbrace, -⟩ := h.exists_front
  obtain ⟨front', rfl, hbrace', -⟩ := h'.exists_front
  simp only [List.append_assoc, List.singleton_append] at heq
  obtain ⟨hidden, rfl⟩ : before' <+: before :=
    List.prefix_of_prefix_length_le ⟨_, heq⟩ ⟨_, rfl⟩ hle
  rw [List.append_assoc, List.append_cancel_left_eq] at heq
  simp only [List.length_append, List.length_singleton] at hlt
  obtain ⟨rest, rfl⟩ : hidden <+: front' :=
    List.prefix_of_prefix_length_le ⟨_, heq.symm⟩ ⟨_, rfl⟩ (by omega)
  have hhidden : '{' ∉ hidden ++ front := by
    simp only [List.mem_append, not_or] at hbrace' ⊢
    exact ⟨hbrace'.1, hbrace⟩
  rw [← List.append_assoc] at heq
  obtain ⟨heq, -⟩ := append_cons_inj_of_first hbrace' hhidden (by simpa using heq)
  exact ⟨hidden, rfl, by simp [heq]⟩

namespace Pattern

variable {kindAt : Nat → Swift.TokenKind}

/-- Each match is a conditional. -/
lemma exists_wraps_of_mem_matches {contents : List Char} {m : Match}
    (hm : m ∈ (conditional kind false).matches kindAt contents) :
    ∃ before gap body ending after, contents = before ++ m.text ++ after ∧
      m.start = before.length ∧ m.kind = kindAt m.start ∧ Wraps kind gap body ending m.text := by
  obtain ⟨before, after, hcontents, hstart, hfits⟩ :=
    exists_of_mem_matchesFrom (isProductive_conditional kind false) hm
  obtain ⟨-, hkind, -, gap, body, ending, hwraps, -⟩ := match?_conditional_eq_some_iff.mp hfits
  exact ⟨before, gap, body, ending, after, hcontents, by simpa using hstart, hkind, hwraps⟩

/-- A match reaches over each conditional, and it ends where the conditional does. -/
lemma exists_match_over (kindAt : Nat → Swift.TokenKind) (h : Wraps kind gap body ending text)
    (before after : List Char) :
    ∃ n ∈ (conditional kind false).matches kindAt (before ++ text ++ after), ∃ lead hidden,
      ∃ gap' body' ending', before = lead ++ hidden ∧ n.start = lead.length ∧
        n.text = hidden ++ text ∧ Wraps kind gap' body' ending' n.text := by
  have hfits : (conditional kind false).match? kindAt (0 + before.length) (text ++ after) =
      some ⟨before.length, text, kindAt before.length, none⟩ := by
    rw [match?_conditional_eq_some_iff]
    exact ⟨by simp, by simp, ⟨after, rfl⟩, gap, body, ending, h, rfl⟩
  obtain ⟨n, hn, hle, hlt⟩ := exists_covering_of_match? (isProductive_conditional kind false) hfits
  rw [← List.append_assoc] at hn
  obtain ⟨lead, gap', body', ending', rest, heq, hstart, -, hn'⟩ := exists_wraps_of_mem_matches hn
  rw [Match.stop, hstart] at hlt
  rw [hstart] at hle
  obtain ⟨hidden, hbefore, htext⟩ := h.eq_append_of_overlap hn' heq.symm hle hlt
  exact ⟨n, hn, lead, hidden, gap', body', ending', hbefore, hstart, htext, hn'⟩

/-- The search finds a conditional exactly if no stretch of the text just before it opens another
one of its kind. -/
theorem exists_match_iff_not_opens (h : Wraps kind gap body ending text) :
    (∃ m ∈ (statement kind).matches kindAt (before ++ text ++ after), m.start = before.length) ↔
      ¬ ∃ hidden, hidden <:+ before ∧ Opens kind hidden := by
  rw [statement_eq_conditional]
  constructor
  · rintro ⟨m, hm, hmstart⟩ ⟨hidden, ⟨lead, rfl⟩, hopens⟩
    obtain ⟨gap', body', hwhole⟩ := hopens.wraps_append h
    have hover := exists_match_over kindAt hwhole lead after
    rw [← List.append_assoc] at hover
    obtain ⟨n, hn, lead', hidden', -, -, -, rfl, hnstart, hntext, -⟩ := hover
    have hpos : 0 < hidden.length := by
      obtain ⟨gap', rest, rfl, -⟩ := hopens
      simp only [List.length_append, List.length_cons]
      omega
    have hlt : n.start < m.start := by
      simp only [hmstart, hnstart, List.length_append]
      omega
    have hle := stop_le_start_of_lt (isProductive_conditional kind false) hn hm hlt
    have htext := h.length_pos
    simp only [Match.stop, Match.length, hmstart, hnstart, hntext, List.length_append] at hle
    omega
  · intro hnone
    obtain ⟨n, hn, lead, hidden, gap', body', ending', rfl, hnstart, hntext, hn'⟩ :=
      exists_match_over kindAt h before after
    refine ⟨n, hn, ?_⟩
    by_contra hne
    have hhidden : hidden ≠ [] := by
      rintro rfl
      simp [hnstart] at hne
    rw [hntext] at hn'
    exact hnone ⟨hidden, ⟨lead, rfl⟩, opens_of_wraps_append hhidden hn' h⟩

end Pattern

end ParenLint
