import ParenLint.Proofs.Statement.Search

/-!
# The leftmost conditionals of a text

At each place of a text at most one conditional of a kind begins, and it can be cut into its parts in
one way only. So what the search returns does not depend on how it tries out runs of characters: it
is the first conditional of the text, then the first one behind it, and so on.
-/

namespace ParenLint

open ParenLint.Swift

variable {kind : StatementKind} {start : Nat} {gap body ending text before after cs : List Char}
  {found : List (Nat × List Char)}

/-- A conditional of the given kind stands at the beginning of the text. -/
def Begins (kind : StatementKind) (cs : List Char) : Prop :=
  ∃ gap body ending text, Wraps kind gap body ending text ∧ text <+: cs

/-- The leftmost conditionals of a text that begins at offset `start`, by their offsets and their
characters. After each of them the text behind it is looked through in the same way. -/
inductive Leftmost (kind : StatementKind) :
    Nat → List Char → List (Nat × List Char) → Prop
  | none {start : Nat} {cs : List Char} (hnone : ∀ tail, tail <:+ cs → ¬ Begins kind tail) :
      Leftmost kind start cs []
  | next {start : Nat} {gap body ending text before after : List Char}
      {found : List (Nat × List Char)} (hwraps : Wraps kind gap body ending text)
      (hfirst : ∀ n < before.length, ¬ Begins kind ((before ++ text ++ after).drop n))
      (hrest : Leftmost kind (start + before.length + text.length) after found) :
      Leftmost kind start (before ++ text ++ after) ((start + before.length, text) :: found)

lemma Wraps.begins (h : Wraps kind gap body ending text) (after : List Char) :
    Begins kind (text ++ after) :=
  ⟨gap, body, ending, text, h, List.prefix_append text after⟩

lemma not_begins_nil (kind : StatementKind) : ¬ Begins kind [] := by
  rintro ⟨gap, body, ending, text, hwraps, hfront⟩
  have hpos := hwraps.length_pos
  simp [List.prefix_nil.mp hfront] at hpos

/-- At one place there is one conditional at most, with one cut. -/
theorem Wraps.unique_of_prefix {gap' body' ending' text' : List Char}
    (h : Wraps kind gap body ending text) (h' : Wraps kind gap' body' ending' text')
    (hfront : text <+: cs) (hfront' : text' <+: cs) :
    text = text' ∧ gap = gap' ∧ body = body' ∧ ending = ending' := by
  obtain ⟨rest, rfl⟩ := hfront
  obtain ⟨rest', hrest'⟩ := hfront'
  obtain rfl := h.text_unique h' hrest'.symm
  exact ⟨rfl, h.parts_unique h'⟩

/-! ### The search -/

namespace Leftmost

/-- A character at which no conditional begins is passed over. -/
lemma cons {c : Char} (hnone : ¬ Begins kind (c :: cs))
    (h : Leftmost kind (start + 1) cs found) : Leftmost kind start (c :: cs) found := by
  cases h with
  | none hcs =>
    apply none
    intro tail htail
    rcases List.suffix_cons_iff.mp htail with rfl | htail
    · exact hnone
    · exact hcs tail htail
  | @next _ gap body ending text before after found hwraps hfirst hrest =>
    have hoffset : start + 1 + before.length = start + (c :: before).length := by
      rw [List.length_cons]
      omega
    rw [hoffset] at hrest ⊢
    have hpassed : ∀ n < (c :: before).length,
        ¬ Begins kind ((c :: before ++ text ++ after).drop n) := by
      intro n hn
      cases n with
      | zero => exact hnone
      | succ n => exact hfirst n (Nat.lt_of_succ_lt_succ hn)
    exact next hwraps hpassed hrest

/-- The leftmost conditionals of a text are determined by it. -/
theorem unique {found' : List (Nat × List Char)} (h : Leftmost kind start cs found)
    (h' : Leftmost kind start cs found') : found = found' := by
  induction h generalizing found' with
  | none hnone =>
    cases h' with
    | none => rfl
    | @next _ gap body ending text before after _ hwraps =>
      have hsuffix : text ++ after <:+ before ++ text ++ after := by
        rw [List.append_assoc]
        exact List.suffix_append before _
      exact absurd (hwraps.begins after) (hnone _ hsuffix)
  | @next start gap body ending text before after found hwraps hfirst hrest ih =>
    generalize hcs : before ++ text ++ after = cs at h' hfirst
    have hbegins : Begins kind (cs.drop before.length) := by
      rw [← hcs, List.append_assoc, List.drop_left]
      exact hwraps.begins after
    cases h' with
    | none hnone => exact absurd hbegins (hnone _ (List.drop_suffix _ _))
    | @next _ gap' body' ending' text' before' after' found' hwraps' hfirst' hrest' =>
      have hbegins' : Begins kind ((before' ++ text' ++ after').drop before'.length) := by
        rw [List.append_assoc, List.drop_left]
        exact hwraps'.begins after'
      -- Neither of the two begins before the other.
      have hlength : before.length = before'.length := by
        rcases Nat.lt_trichotomy before.length before'.length with hlt | heq | hlt
        · exact absurd hbegins (hfirst' _ hlt)
        · exact heq
        · exact absurd hbegins' (hfirst _ hlt)
      simp only [List.append_assoc] at hcs
      obtain ⟨rfl, htail⟩ := List.append_inj hcs hlength
      obtain rfl := hwraps.text_unique hwraps' htail
      obtain rfl := List.append_cancel_left htail
      rw [ih hrest']

end Leftmost

namespace Pattern

variable {kindAt : Nat → TokenKind}

/-- The pattern of a conditional fits at the beginning of a text exactly if a conditional is
there. -/
lemma isSome_match?_iff {captured : Bool} :
    ((conditional kind captured).match? kindAt start cs).isSome ↔ Begins kind cs := by
  rw [Option.isSome_iff_exists]
  constructor
  · rintro ⟨m, hm⟩
    obtain ⟨-, -, ⟨rest, rfl⟩, gap, body, ending, hwraps, -⟩ := match?_conditional_eq_some_iff.mp hm
    exact hwraps.begins rest
  · rintro ⟨gap, body, ending, text, hwraps, rest, rfl⟩
    refine ⟨⟨start, text, kindAt start, if captured then some body else none⟩, ?_⟩
    apply match?_conditional_eq_some_iff.mpr
    exact ⟨rfl, rfl, ⟨rest, rfl⟩, gap, body, ending, hwraps, rfl⟩

/-- The search returns the leftmost conditionals. -/
theorem leftmost_matchesFrom (kind : StatementKind) (captured : Bool)
    (kindAt : Nat → TokenKind) (start : Nat) (cs : List Char) :
    Leftmost kind start cs (((conditional kind captured).matchesFrom kindAt start cs).map fun m =>
      (m.start, m.text)) := by
  have hp := isProductive_conditional kind captured
  induction start, cs using search_induction hp kindAt with
  | nil start =>
    rw [matchesFrom_nil]
    apply Leftmost.none
    intro tail htail
    rw [List.suffix_nil.mp htail]
    exact not_begins_nil kind
  | found start m after hm ih =>
    obtain ⟨hstart, -, -, gap, body, ending, hwraps, -⟩ := match?_conditional_eq_some_iff.mp hm
    have hstop : m.stop = start + m.text.length := by rw [Match.stop, hstart, Match.length]
    rw [matchesFrom_of_some hp hm, List.map_cons, hstart, hstop]
    rw [hstop] at ih
    have hfirst : ∀ n < ([] : List Char).length, ¬ Begins kind (([] ++ m.text ++ after).drop n) := by
      simp
    exact Leftmost.next hwraps hfirst ih
  | passed start c cs hnone ih =>
    rw [matchesFrom_of_none hnone]
    have hbegins : ((conditional kind captured).match? kindAt start (c :: cs)).isSome ↔
        Begins kind (c :: cs) := isSome_match?_iff
    refine Leftmost.cons ?_ ih
    rw [← hbegins, hnone]
    simp

/-- The pattern of a statement fits a stretch of a text exactly if this is a conditional of its
kind. At one place there is one such stretch at most, with one body. The matches are the leftmost
conditionals, the search going on behind each of them. The pattern that records the bodies finds
the same matches, and records these bodies. -/
theorem matches_exactly_conditionals (kind : StatementKind) (kindAt : Nat → TokenKind)
    (contents : List Char) :
    (∀ p text, (∃ m, (statement kind).match? kindAt p (contents.drop p) = some m ∧
        m.text = text) ↔
      text <+: contents.drop p ∧ ∃ gap body ending, Wraps kind gap body ending text) ∧
    (∀ p gap body ending text gap' body' ending' text',
      text <+: contents.drop p → Wraps kind gap body ending text →
      text' <+: contents.drop p → Wraps kind gap' body' ending' text' →
        text = text' ∧ gap = gap' ∧ body = body' ∧ ending = ending') ∧
    (∀ found, Leftmost kind 0 contents found ↔
      found = ((statement kind).matches kindAt contents).map fun m => (m.start, m.text)) ∧
    (∀ m ∈ (statement kind).matches kindAt contents, m.kind = kindAt m.start) ∧
    (correctable.matches kindAt contents).map Match.withoutCapture =
      (statement .if).matches kindAt contents ∧
    ∀ m ∈ correctable.matches kindAt contents, ∃ gap body ending,
      Wraps .if gap body ending m.text ∧ m.captured = some body := by
  refine ⟨?_, ?_, ?_, ?_, matchesFrom_conditional_map .if, ?_⟩
  · intro p text
    constructor
    · rintro ⟨m, hm, rfl⟩
      obtain ⟨-, -, ⟨rest, hrest⟩, gap, body, ending, hwraps, -⟩ :=
        match?_conditional_eq_some_iff.mp hm
      exact ⟨⟨rest, hrest.symm⟩, gap, body, ending, hwraps⟩
    · rintro ⟨⟨rest, hrest⟩, gap, body, ending, hwraps⟩
      refine ⟨⟨p, text, kindAt p, none⟩, ?_, rfl⟩
      apply match?_conditional_eq_some_iff.mpr
      exact ⟨rfl, rfl, ⟨rest, hrest.symm⟩, gap, body, ending, hwraps, rfl⟩
  · intro p gap body ending text gap' body' ending' text' hfront hwraps hfront' hwraps'
    exact hwraps.unique_of_prefix hwraps' hfront hfront'
  · intro found
    have hmatches := leftmost_matchesFrom kind false kindAt 0 contents
    constructor
    · intro hfound
      exact hfound.unique hmatches
    · rintro rfl
      exact hmatches
  · intro m hm
    obtain ⟨before, after, -, -, hfits⟩ :=
      exists_of_mem_matchesFrom (isProductive_conditional kind false) hm
    exact (eq_of_match? hfits).2.1
  · intro m hm
    obtain ⟨before, after, -, -, hfits⟩ :=
      exists_of_mem_matchesFrom (isProductive_conditional .if true) hm
    obtain ⟨-, -, -, gap, body, ending, hwraps, hcaptured⟩ :=
      match?_conditional_eq_some_iff.mp hfits
    exact ⟨gap, body, ending, hwraps, hcaptured⟩

/-- The first body has closing parentheses and an `else` of its own, and a blank that is not
ASCII separates the second guard from its body. -/
theorem matches_exactly_conditionals_of_guards :
    let contents := "guard (a)) else (b) else \x7b\x7d guard\u00a0(c)else\x7b".toList
    Leftmost .guard 0 contents
        [(0, "guard (a)) else (b) else \x7b".toList), (28, "guard\u00a0(c)else\x7b".toList)] ∧
      ∀ gap body ending text, text <+: contents → Wraps .guard gap body ending text →
        body = "a)) else (b".toList := by
  intro contents
  obtain ⟨-, hunique, hleftmost, -⟩ :=
    matches_exactly_conditionals .guard (fun _ => .keyword) contents
  have hblank : ∀ c ∈ [' '], Text.isBlank c := List.forall_mem_singleton.mpr Text.isBlank_space
  have hending : Ending .guard ([' '] ++ "else".toList ++ [' '] ++ ['\x7b']) :=
    .elseBrace hblank hblank
  have hfirst : Wraps .guard [' '] "a)) else (b".toList " else \x7b".toList
      "guard (a)) else (b) else \x7b".toList :=
    ⟨rfl, hblank, by simp [isBodyChar], hending⟩
  refine ⟨(hleftmost _).mpr (by decide +kernel), ?_⟩
  intro gap body ending text hfront hwraps
  exact (hunique 0 _ _ _ _ _ _ _ _ hfront hwraps
    (List.isPrefixOf_iff_prefix.mp (by decide +kernel)) hfirst).2.2.1

end Pattern

end ParenLint
