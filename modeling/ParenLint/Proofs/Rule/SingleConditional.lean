import Mathlib.Data.List.Sort
import ParenLint.Proofs.Rule.Reported
import ParenLint.Proofs.Swift.Classification
import ParenLint.Proofs.Swift.Element

/-!
# A text that is one conditional

Where a text is one conditional and the condition in its parentheses is balanced, nothing else in it
is taken for a wrapped conditional: what begins inside the condition closes early. The conditional
itself is found unless its condition has a comma, however deep in further parentheses the comma
stands.
-/

namespace ParenLint

open ParenLint.Swift ParenLint.Text

variable {kind kind' : StatementKind} {gap condition ending contents : List Char}

/-- A comma of the text stands outside all parentheses of the text. -/
def HasOuterComma (text : List Char) : Prop :=
  ∃ front ∈ text.inits, front ++ [','] ∈ text.inits ∧ front.count '(' = front.count ')'

instance (text : List Char) : Decidable (HasOuterComma text) :=
  inferInstanceAs (Decidable (∃ front ∈ _, _))

/-- The text is one conditional with a balanced condition in its parentheses. -/
structure IsConditional (kind : StatementKind) (gap condition ending contents : List Char) :
    Prop where
  contents_eq : contents = kind.keyword.toList ++ gap ++ '(' :: condition ++ ')' :: ending
  gap_blank : ∀ c ∈ gap, isBlank c = true
  balanced : Balanced condition
  brace_not_mem : '{' ∉ condition
  ending : Ending kind ending

/-! ### Keywords and blanks -/

lemma isBlank_eq_false_of_mem_keyword (kind : StatementKind) :
    ∀ c ∈ kind.keyword.toList, isBlank c = false :=
  List.forall_mem_iff_forall_getElem.mpr (by cases kind <;> decide)

/-- No keyword ends in another one. -/
lemma StatementKind.eq_of_keyword_suffix (h : kind'.keyword.toList <:+ kind.keyword.toList) :
    kind' = kind := by
  revert h
  cases kind <;> cases kind' <;> decide

/-- A keyword with blanks behind it ends in no other one with blanks behind it. -/
lemma eq_nil_of_keyword_blanks_eq {before gap' : List Char} (hgap : ∀ c ∈ gap, isBlank c = true)
    (hgap' : ∀ c ∈ gap', isBlank c = true)
    (h : before ++ (kind'.keyword.toList ++ gap') = kind.keyword.toList ++ gap) :
    before = [] ∧ kind' = kind := by
  have hblanks : ∀ {w : List Char}, (∀ c ∈ w, isBlank c = true) →
      w.filter (fun c => !isBlank c) = [] := by
    intro w hw
    simpa [List.filter_eq_nil_iff] using hw
  have hletters : ∀ kind : StatementKind,
      kind.keyword.toList.filter (fun c => !isBlank c) = kind.keyword.toList := by
    intro kind
    simpa [List.filter_eq_self] using isBlank_eq_false_of_mem_keyword kind
  have hsuffix := congrArg (List.filter fun c => !isBlank c) h
  simp only [List.filter_append, hblanks hgap, hblanks hgap', hletters, List.append_nil] at hsuffix
  obtain rfl := StatementKind.eq_of_keyword_suffix ⟨_, hsuffix⟩
  exact ⟨eq_nil_of_append_keyword_eq hgap h, rfl⟩

namespace IsConditional

/-- The last brace of the text is the only one in it. -/
lemma exists_front (h : IsConditional kind gap condition ending contents) :
    ∃ front, contents = front ++ ['{'] ∧ '{' ∉ front := by
  obtain ⟨front, hfront, -⟩ := h.ending.exists_front
  obtain ⟨-, -, -, hbrace⟩ := h.ending.not_mem_front hfront
  refine ⟨kind.keyword.toList ++ gap ++ '(' :: condition ++ ')' :: front, ?_, ?_⟩
  · simp [h.contents_eq, hfront]
  · have hkeyword : '{' ∉ kind.keyword.toList := by cases kind <;> decide
    have hgap : '{' ∉ gap := not_mem_of_isBlank h.gap_blank rfl
    simp [hkeyword, hgap, h.brace_not_mem, hbrace]

/-- A conditional in the text ends where the text does. -/
lemma eq_append_of_wraps (h : IsConditional kind gap condition ending contents)
    {before gap' body ending' text after : List Char} (hwraps : Wraps kind' gap' body ending' text)
    (hcontents : contents = before ++ text ++ after) : contents = before ++ text := by
  obtain ⟨front, rfl, hbrace⟩ := h.exists_front
  obtain ⟨front', rfl, -⟩ := hwraps.exists_front
  obtain rfl | ⟨after, c, rfl⟩ := after.eq_nil_or_concat
  · simpa using hcontents
  · -- Otherwise its brace would be one of those before the last one.
    have hlast : front ++ ['{'] = (before ++ front' ++ '{' :: after) ++ [c] := by
      simpa using hcontents
    obtain ⟨rfl, -⟩ := List.append_inj' hlast rfl
    simp at hbrace

/-- A conditional in the text whose body does not close its parenthesis is the whole text. -/
lemma eq_of_wraps (h : IsConditional kind gap condition ending contents)
    {before gap' body ending' text after : List Char} (hwraps : Wraps kind' gap' body ending' text)
    (hbody : StaysAbove 0 body) (hcontents : contents = before ++ text ++ after) :
    before = [] ∧ kind' = kind ∧ body = condition := by
  have heq : (before ++ (kind'.keyword.toList ++ gap' ++ '(' :: body)) ++ ')' :: ending' =
      (kind.keyword.toList ++ gap ++ '(' :: condition) ++ ')' :: ending := by
    have heq := (h.eq_append_of_wraps hwraps hcontents).symm
    rw [h.contents_eq, hwraps.text_eq] at heq
    simpa using heq
  obtain ⟨heq, -⟩ := append_cons_inj_of_last hwraps.ending.closeParen_not_mem
    h.ending.closeParen_not_mem heq
  have hlead : '(' ∉ kind.keyword.toList ++ gap := by
    have hkeyword : '(' ∉ kind.keyword.toList := by cases kind <;> decide
    simpa [hkeyword] using not_mem_of_isBlank h.gap_blank (c := '(') rfl
  by_cases hparen : '(' ∈ before
  · -- The parenthesis of the body stands in the condition, where it has its partner.
    obtain ⟨lead, rest, rfl, hfirst⟩ := List.eq_append_cons_of_mem hparen
    rw [List.append_assoc, List.cons_append] at heq
    obtain ⟨-, hcondition⟩ := append_cons_inj_of_first hfirst hlead heq
    have hfront := h.balanced.staysAbove (rest ++ (kind'.keyword.toList ++ gap'))
      ⟨'(' :: body, by simp [← hcondition]⟩
    have hcount := h.balanced.count_eq
    have hclosed := hbody body List.prefix_rfl
    simp only [← hcondition, List.count_append, List.count_cons_self,
      List.count_cons_of_ne (by decide : '(' ≠ ')')] at hfront hcount
    omega
  · have hlead' : '(' ∉ before ++ (kind'.keyword.toList ++ gap') := by
      simpa [hparen] using hwraps.not_mem_lead (c := '(') (by decide)
    rw [← List.append_assoc] at heq
    obtain ⟨hfront, hbody⟩ := append_cons_inj_of_first hlead' hlead heq
    obtain ⟨hbefore, hkind⟩ := eq_nil_of_keyword_blanks_eq h.gap_blank hwraps.gap_blank hfront
    exact ⟨hbefore, hkind, hbody⟩

/-- The text begins with a token that is its keyword. -/
lemma kindAt_zero (h : IsConditional kind gap condition ending contents) :
    Token.kindAt (tokens contents) 0 = .keyword := by
  obtain ⟨c, rest, hrest, hc⟩ := exists_cons_of_blanks h.gap_blank (condition ++ ')' :: ending)
  obtain ⟨first, tail, hkeyword⟩ : ∃ first tail, kind.keyword.toList = first :: tail := by
    cases kind <;> exact ⟨_, _, rfl⟩
  have hcontents : contents = first :: tail ++ c :: rest := by
    rw [h.contents_eq, ← hrest, ← hkeyword]
    simp
  have hfirst : isNameStart first = true := by
    have hstart : kind.keyword.toList.head?.any isNameStart = true := by cases kind <;> decide
    simpa [hkeyword] using hstart
  have htail : ∀ d ∈ tail, isNameChar d = true := by
    intro d hd
    exact isNameChar_of_mem_keyword kind d (by simp [hkeyword, hd])
  have hword : nameKind (first :: tail) = .keyword := by
    rw [← hkeyword]
    cases kind <;> decide
  have hat := (Scan.nil (first :: (tail ++ c :: rest))).kindAt_eq
  have hlexeme := lexeme?_word hfirst htail hc rest
  rw [List.cons_append] at hlexeme
  rw [hlexeme, hword] at hat
  rw [hcontents]
  exact hat

variable {kindAt : Nat → TokenKind}

/-- Without a comma the text is a wrapped conditional. -/
lemma wraps (h : IsConditional kind gap condition ending contents) (hcomma : ',' ∉ condition) :
    Wraps kind gap condition ending contents := by
  refine ⟨h.contents_eq, h.gap_blank, ?_, h.ending⟩
  intro c hc
  have hne : c ≠ ',' ∧ c ≠ '{' :=
    ⟨ne_of_mem_of_not_mem hc hcomma, ne_of_mem_of_not_mem hc h.brace_not_mem⟩
  simpa [isBodyChar] using hne

/-- Nothing in the text but the text itself is found. -/
lemma of_mem_wrappedOffsets (h : IsConditional kind gap condition ending contents) {offset : Nat}
    (hoffset : offset ∈ wrappedOffsets kindAt contents kind') :
    offset = 0 ∧ kind' = kind ∧ ',' ∉ condition := by
  obtain ⟨m, hm, rfl⟩ := List.mem_map.mp hoffset
  obtain ⟨hmatch, hwrapped⟩ := Pattern.mem_wrapped.mp hm
  obtain ⟨before, gap', body, ending', after, hcontents, hstart, -, hwraps⟩ :=
    Pattern.exists_wraps_of_mem_matches hmatch
  have hbody : StaysAbove 0 body := by
    rwa [Match.isFalsePositive, m.kind_of_isFalsePositive_eq_false hwrapped,
      hwraps.isFalsePositive_eq_false_iff] at hwrapped
  obtain ⟨rfl, rfl, rfl⟩ := h.eq_of_wraps hwraps hbody hcontents
  refine ⟨hstart, rfl, ?_⟩
  intro hcomma
  exact absurd (hwraps.body_char _ hcomma) (by decide)

lemma zero_mem_wrappedOffsets (h : IsConditional kind gap condition ending contents)
    (hkeyword : kindAt 0 = .keyword) (hcomma : ',' ∉ condition) :
    0 ∈ wrappedOffsets kindAt contents kind := by
  have hwraps := h.wraps hcomma
  obtain ⟨m, hm, hstart⟩ : ∃ m ∈ (Pattern.statement kind).matches kindAt ([] ++ contents ++ []),
      m.start = 0 := by
    refine (Pattern.exists_match_iff_not_opens hwraps).mpr ?_
    rintro ⟨hidden, hsuffix, gap', rest, hopens, -⟩
    simp [List.suffix_nil.mp hsuffix] at hopens
  rw [List.nil_append, List.append_nil] at hm
  obtain ⟨before, gap', body, ending', after, hcontents, hbefore, hkind, hwraps'⟩ :=
    Pattern.exists_wraps_of_mem_matches hm
  rw [hstart] at hbefore hkind
  obtain rfl := List.length_eq_zero_iff.mp hbefore.symm
  have hrest : contents ++ [] = m.text ++ after := by simpa using hcontents
  have htext := hwraps.text_unique hwraps' hrest
  refine List.mem_map.mpr ⟨m, Pattern.mem_wrapped.mpr ⟨hm, ?_⟩, hstart⟩
  rw [Match.isFalsePositive, hkind, hkeyword, ← htext, hwraps.isFalsePositive_eq_false_iff]
  exact h.balanced.staysAbove

/-- The offsets at which conditionals of a kind are found: that of the text, if it has no comma. -/
lemma wrappedOffsets_eq (h : IsConditional kind gap condition ending contents)
    (hkeyword : kindAt 0 = .keyword) (kind' : StatementKind) :
    wrappedOffsets kindAt contents kind' =
      if kind' = kind ∧ ',' ∉ condition then [0] else [] := by
  split_ifs with hfound
  · obtain ⟨rfl, hcomma⟩ := hfound
    refine pairwise_wrappedOffsets.eq_of_mem_iff (List.pairwise_singleton _ 0) fun offset => ?_
    rw [List.mem_singleton]
    constructor
    · intro hoffset
      exact (h.of_mem_wrappedOffsets hoffset).1
    · rintro rfl
      exact h.zero_mem_wrappedOffsets hkeyword hcomma
  · refine List.eq_nil_iff_forall_not_mem.mpr fun offset hoffset => hfound ?_
    exact (h.of_mem_wrappedOffsets hoffset).2

end IsConditional

/-- A text that is one conditional with a balanced condition is reported once, at its keyword, if
the condition has no comma at all. Otherwise nothing is reported. -/
theorem conditional_reported_unless_comma {path : Option String} {severity : Severity}
    (h : IsConditional kind gap condition ending contents) :
    let file := SourceFile.ofContents contents path
    check file (fun o => Token.kindAt (tokens contents) o) severity =
      if ',' ∈ condition then [] else [controlStatement.violation severity (file.location 0)] := by
  intro file
  have hoffsets (kind' : StatementKind) :
      wrappedOffsets (fun o => Token.kindAt (tokens contents) o) contents kind' =
        if kind' = kind ∧ ',' ∉ condition then [0] else [] :=
    h.wrappedOffsets_eq h.kindAt_zero kind'
  have hcontents : file.contents = contents := rfl
  simp only [check_eq_flatMap, hcontents, hoffsets]
  split_ifs with hcomma
  · simp [hcomma]
  · simp only [hcomma, not_false_eq_true, and_true]
    cases kind <;> rfl

/-- Calls, ranges and groups may be nested in the condition, over several lines. -/
theorem nested_condition_reported :
    let condition := "(a || f(b)(c)) &&\n (min...max).contains((d))".toList
    let contents := "guard\t((a || f(b)(c)) &&\n (min...max).contains((d))) else \x7b".toList
    let file := SourceFile.ofContents contents none
    IsConditional .guard ['\t'] condition " else \x7b".toList contents ∧
      check file (fun o => Token.kindAt (tokens contents) o) .error =
        [controlStatement.violation .error (file.location 0)] := by
  intro condition contents file
  have hblank : ∀ c ∈ [' '], isBlank c = true := List.all_eq_true.mp rfl
  have hending : Ending .guard ([' '] ++ "else".toList ++ [' '] ++ ['\x7b']) :=
    .elseBrace hblank hblank
  have hconditional : IsConditional .guard ['\t'] condition " else \x7b".toList contents :=
    ⟨rfl, List.all_eq_true.mp rfl, by decide +kernel, by decide, hending⟩
  refine ⟨hconditional, ?_⟩
  exact (conditional_reported_unless_comma hconditional).trans (if_neg (by decide))

/-- The comma stands in the parentheses of a call, and the conditional is not reported. -/
theorem call_with_two_arguments_not_reported :
    let condition := "f(a, b)".toList
    let contents := "if (f(a, b)) \x7b".toList
    IsConditional .if [' '] condition [' ', '\x7b'] contents ∧ ¬ HasOuterComma condition ∧
      (∀ c ∈ ['"', '\x60', '/'], c ∉ condition) ∧
      check (.ofContents contents none) (fun o => Token.kindAt (tokens contents) o) .warning =
        [] := by
  intro condition contents
  refine ⟨?_, by decide, ?_, by decide +kernel⟩
  · exact ⟨rfl, List.all_eq_true.mp rfl, by decide, by decide,
      .brace (w := [' ']) (by decide) (List.all_eq_true.mp rfl)⟩
  · intro c hc
    simp only [List.mem_cons, List.not_mem_nil, or_false] at hc
    rcases hc with rfl | rfl | rfl <;> decide

end ParenLint
