import Mathlib.Data.Bool.AllAny
import Mathlib.Data.List.Forall2
import ParenLint.Statement.Match

/-!
# The grammar of wrapped conditionals

A pattern reads the front of a text exactly when the front can be cut into parts that its pieces
accept: giving characters back never loses a cut. For the patterns of statements the cut is
unique. A match ends at the first opening brace, and its body ends at the last closing parenthesis
before that brace.
-/

namespace ParenLint

open ParenLint.Text

/-! ### The first and the last occurrence of a character -/

lemma takeWhile_ne_append_cons {x : Char} {a : List Char} (ha : x ∉ a) (b : List Char) :
    (a ++ x :: b).takeWhile (· ≠ x) = a := by
  have hne : ∀ c ∈ a, decide (c ≠ x) = true := by
    intro c hc
    simpa using fun heq : c = x => ha (heq ▸ hc)
  rw [List.takeWhile_append_of_pos hne]
  simp

lemma append_cons_inj_of_first {x : Char} {a a' b b' : List Char} (ha : x ∉ a) (ha' : x ∉ a')
    (h : a ++ x :: b = a' ++ x :: b') : a = a' ∧ b = b' := by
  have hfst : a = a' := by
    rw [← takeWhile_ne_append_cons ha b, h, takeWhile_ne_append_cons ha' b']
  subst hfst
  simpa using h

lemma append_cons_inj_of_last {x : Char} {a a' b b' : List Char} (hb : x ∉ b) (hb' : x ∉ b')
    (h : a ++ x :: b = a' ++ x :: b') : a = a' ∧ b = b' := by
  have hrev : b.reverse ++ x :: a.reverse = b'.reverse ++ x :: a'.reverse := by
    simpa using congrArg List.reverse h
  obtain ⟨hb, ha⟩ := append_cons_inj_of_first (by simpa using hb) (by simpa using hb') hrev
  exact ⟨List.reverse_injective ha, List.reverse_injective hb⟩

/-! ### Runs and cuts -/

section Runs

variable {α : Type} {p : Char → Bool} {next : List Char → Option α}

lemma longestRun_eq_some {cs run : List Char} {r : α} (h : longestRun p next cs = some (run, r)) :
    ∃ rest, cs = run ++ rest ∧ (∀ c ∈ run, p c = true) ∧ next rest = some r := by
  induction cs generalizing run with
  | nil =>
    simp only [longestRun, Option.map_eq_some_iff, Prod.mk.injEq] at h
    obtain ⟨_, hr, rfl, rfl⟩ := h
    exact ⟨[], rfl, by simp, hr⟩
  | cons c cs ih =>
    simp only [longestRun] at h
    split at h
    · next run' r' hext =>
      split_ifs at hext with hc
      cases h
      obtain ⟨rest, rfl, hrun, hr⟩ := ih hext
      exact ⟨rest, rfl, by simpa [hc] using hrun, hr⟩
    · simp only [Option.map_eq_some_iff, Prod.mk.injEq] at h
      obtain ⟨_, hr, rfl, rfl⟩ := h
      exact ⟨c :: cs, rfl, by simp, hr⟩

lemma isSome_longestRun {run rest : List Char} (hrun : ∀ c ∈ run, p c = true)
    (hrest : (next rest).isSome) : (longestRun p next (run ++ rest)).isSome := by
  induction run with
  | nil =>
    cases rest with
    | nil => simpa [longestRun] using hrest
    | cons c cs =>
      simp only [List.nil_append, longestRun]
      split
      · rfl
      · simpa using hrest
  | cons c run ih =>
    obtain ⟨r, hr⟩ := Option.isSome_iff_exists.mp
      (ih fun d hd => hrun d (List.mem_cons_of_mem c hd))
    simp [longestRun, hrun c List.mem_cons_self, hr]

end Runs

namespace Pattern

/-- What `split?` returns is a cut that the pieces accept. -/
lemma forall₂_accepts_of_split? {p : Pattern} {cs : List Char} {parts : List (List Char)}
    (h : p.split? cs = some parts) :
    List.Forall₂ Piece.Accepts p parts ∧ ∃ rest, cs = parts.flatten ++ rest := by
  induction p generalizing cs parts with
  | nil =>
    simp only [split?, Option.some.injEq] at h
    subst h
    exact ⟨.nil, cs, rfl⟩
  | cons piece p ih =>
    cases piece with
    | word w =>
      simp only [split?] at h
      split_ifs at h with hw
      obtain ⟨ts, hts, rfl⟩ := Option.map_eq_some_iff.mp h
      obtain ⟨hacc, rest, hrest⟩ := ih hts
      refine ⟨.cons rfl hacc, rest, ?_⟩
      rw [List.flatten_cons, List.append_assoc, ← hrest]
      exact (List.prefix_iff_eq_append.mp (List.isPrefixOf_iff_prefix.mp hw)).symm
    | blanks =>
      obtain ⟨⟨t, ts⟩, hrun, rfl⟩ := Option.map_eq_some_iff.mp h
      obtain ⟨mid, rfl, ht, hmid⟩ := longestRun_eq_some hrun
      obtain ⟨hacc, rest, rfl⟩ := ih hmid
      exact ⟨.cons ht hacc, rest, by simp⟩
    | body captured =>
      obtain ⟨⟨t, ts⟩, hrun, rfl⟩ := Option.map_eq_some_iff.mp h
      obtain ⟨mid, rfl, ht, hmid⟩ := longestRun_eq_some hrun
      obtain ⟨hacc, rest, rfl⟩ := ih hmid
      exact ⟨.cons ht hacc, rest, by simp⟩

/-- If the pieces accept some cut of the front of a text, then `split?` finds one. -/
lemma isSome_split? {p : Pattern} {parts : List (List Char)}
    (h : List.Forall₂ Piece.Accepts p parts) (rest : List Char) :
    (p.split? (parts.flatten ++ rest)).isSome := by
  induction h with
  | nil => rfl
  | @cons piece part p parts hpart _ ih =>
    rw [List.flatten_cons, List.append_assoc]
    cases piece with
    | word w =>
      obtain rfl : part = w := hpart
      simpa [split?] using ih
    | blanks => simpa [split?] using isSome_longestRun hpart ih
    | body captured => simpa [split?] using isSome_longestRun hpart ih

end Pattern

/-! ### The shape of a wrapped conditional -/

/-- How a match ends behind the parenthesis that closes its body. -/
inductive Ending : StatementKind → List Char → Prop
  | brace {kind : StatementKind} {w : List Char} (hkind : kind ≠ .guard)
      (hw : ∀ c ∈ w, isBlank c = true) : Ending kind (w ++ ['{'])
  | elseBrace {w w' : List Char} (hw : ∀ c ∈ w, isBlank c = true)
      (hw' : ∀ c ∈ w', isBlank c = true) : Ending .guard (w ++ "else".toList ++ w' ++ ['{'])

/-- The text is a conditional of the given kind whose parentheses enclose `body`. -/
structure Wraps (kind : StatementKind) (gap body ending text : List Char) : Prop where
  text_eq : text = kind.keyword.toList ++ gap ++ '(' :: body ++ ')' :: ending
  gap_blank : ∀ c ∈ gap, isBlank c = true
  body_char : ∀ c ∈ body, isBodyChar c = true
  ending : Ending kind ending

/-- The characters that the fixed part of an ending is made of, blanks apart. -/
lemma Ending.exists_front {kind : StatementKind} {e : List Char} (h : Ending kind e) :
    ∃ front, e = front ++ ['{'] ∧ ∀ c ∈ front, isBlank c = true ∨ c ∈ "else".toList := by
  cases h with
  | brace _ hw => exact ⟨_, rfl, fun c hc => .inl (hw c hc)⟩
  | @elseBrace w w' hw hw' =>
    refine ⟨w ++ "else".toList ++ w', rfl, ?_⟩
    intro c hc
    simp only [List.mem_append] at hc
    obtain (hc | hc) | hc := hc
    · exact .inl (hw c hc)
    · exact .inr hc
    · exact .inl (hw' c hc)

lemma not_mem_of_isBlank {w : List Char} {c : Char} (hw : ∀ d ∈ w, isBlank d = true)
    (hc : isBlank c = false) : c ∉ w := by
  intro hmem
  simp [hw c hmem] at hc

/-- No character of an ending but its brace is a parenthesis, a comma or a brace. -/
lemma Ending.not_mem_front {e front : List Char} {kind : StatementKind} (h : Ending kind e)
    (hfront : e = front ++ ['{']) : '(' ∉ front ∧ ')' ∉ front ∧ ',' ∉ front ∧ '{' ∉ front := by
  obtain ⟨front', hfront', hmem⟩ := h.exists_front
  obtain rfl : front = front' := List.append_cancel_right (hfront.symm.trans hfront')
  refine ⟨?_, ?_, ?_, ?_⟩ <;>
  · intro hc
    obtain hblank | helse := hmem _ hc
    · exact absurd hblank (by decide)
    · exact absurd helse (by decide)

lemma Ending.closeParen_not_mem {kind : StatementKind} {e : List Char} (h : Ending kind e) :
    ')' ∉ e := by
  obtain ⟨front, hfront, -⟩ := h.exists_front
  simp [hfront, (h.not_mem_front hfront).2.1]

namespace Wraps

variable {kind : StatementKind} {gap body ending text : List Char}

lemma length_pos (h : Wraps kind gap body ending text) : 0 < text.length := by
  rw [h.text_eq, List.length_append]
  exact Nat.add_pos_right _ (Nat.succ_pos _)

/-- Nothing but blanks and the letters of the keyword stands before the body. -/
lemma not_mem_lead (h : Wraps kind gap body ending text) {c : Char}
    (hc : c ∈ ['(', ')', ',', '{']) : c ∉ kind.keyword.toList ++ gap := by
  have hblank : ∀ d ∈ ['(', ')', ',', '{'], isBlank d = false :=
    List.all_iff_forall_prop.mp rfl
  have hkeyword : ∀ d ∈ ['(', ')', ',', '{'], d ∉ kind.keyword.toList :=
    List.all_iff_forall_prop.mp (by cases kind <;> rfl)
  simpa [hkeyword c hc] using not_mem_of_isBlank h.gap_blank (hblank c hc)

/-- The brace at the end of a match is the only one in it, and there is no comma. -/
lemma exists_front (h : Wraps kind gap body ending text) :
    ∃ front, text = front ++ ['{'] ∧ '{' ∉ front ∧ ',' ∉ front := by
  obtain ⟨front, hfront, -⟩ := h.ending.exists_front
  obtain ⟨-, -, hcomma, hbrace⟩ := h.ending.not_mem_front hfront
  refine ⟨kind.keyword.toList ++ gap ++ '(' :: body ++ ')' :: front, ?_, ?_, ?_⟩
  · simp [h.text_eq, hfront]
  · have hlead : '{' ∉ kind.keyword.toList ++ gap := h.not_mem_lead (by decide)
    have hbody : '{' ∉ body := fun hc => absurd (h.body_char _ hc) (by decide)
    simpa [hbody, hbrace] using hlead
  · have hlead : ',' ∉ kind.keyword.toList ++ gap := h.not_mem_lead (by decide)
    have hbody : ',' ∉ body := fun hc => absurd (h.body_char _ hc) (by decide)
    simpa [hbody, hcomma] using hlead

/-- A match reaches up to the first opening brace of the text that it begins. -/
lemma eq_takeWhile (h : Wraps kind gap body ending text) (rest : List Char) :
    text = (text ++ rest).takeWhile (· ≠ '{') ++ ['{'] := by
  obtain ⟨front, rfl, hbrace, -⟩ := h.exists_front
  rw [List.append_assoc, List.singleton_append, takeWhile_ne_append_cons hbrace]

/-- Two conditionals that begin one text have the same characters. -/
lemma text_unique {gap' body' ending' text' rest rest' : List Char}
    (h : Wraps kind gap body ending text) (h' : Wraps kind gap' body' ending' text')
    (heq : text ++ rest = text' ++ rest') : text = text' := by
  rw [h.eq_takeWhile rest, heq, ← h'.eq_takeWhile rest']

/-- The body of a match begins behind its first opening parenthesis and ends at its last closing
one. -/
lemma parts_unique {gap' body' ending' : List Char}
    (h : Wraps kind gap body ending text) (h' : Wraps kind gap' body' ending' text) :
    gap = gap' ∧ body = body' ∧ ending = ending' := by
  have heq := h.text_eq.symm.trans h'.text_eq
  simp only [List.append_assoc, List.cons_append, List.append_cancel_left_eq] at heq
  obtain ⟨hgap, heq⟩ := append_cons_inj_of_first (not_mem_of_isBlank h.gap_blank rfl)
    (not_mem_of_isBlank h'.gap_blank rfl) heq
  exact ⟨hgap, append_cons_inj_of_last h.ending.closeParen_not_mem h'.ending.closeParen_not_mem heq⟩

end Wraps

/-! ### What the patterns of statements match -/

namespace Pattern

/-- The pattern of a wrapped conditional, which records its body if `captured` is set. -/
def conditional (kind : StatementKind) (captured : Bool) : Pattern :=
  .word kind.keyword.toList :: wrappedBody captured
    ++ (if kind = .guard then [.word "else".toList, .blanks] else [])
    ++ [.word ['{']]

lemma statement_eq_conditional (kind : StatementKind) : statement kind = conditional kind false :=
  rfl

lemma correctable_eq_conditional : correctable = conditional .if true := rfl

/-- The parts that the pattern of a conditional accepts are those of a conditional. -/
lemma exists_wraps_of_forall₂ {kind : StatementKind} {captured : Bool} {parts : List (List Char)}
    (h : List.Forall₂ Piece.Accepts (conditional kind captured) parts) :
    ∃ gap body ending, Wraps kind gap body ending parts.flatten ∧
      (conditional kind captured).captured? parts = if captured then some body else none := by
  by_cases hkind : kind = .guard
  · subst hkind
    obtain - | ⟨rfl, - | ⟨hgap, - | ⟨rfl, - | ⟨hbody, - | ⟨rfl, - | ⟨hw, - | ⟨rfl,
      - | ⟨hw', - | ⟨rfl, - | -⟩⟩⟩⟩⟩⟩⟩⟩⟩ := h
    refine ⟨_, _, _, ⟨?_, hgap, hbody, .elseBrace hw hw'⟩, ?_⟩
    · simp
    · cases captured <;> simp [conditional, wrappedBody, captured?, Piece.isCaptured]
  · simp only [conditional, hkind, if_false, wrappedBody, List.cons_append, List.nil_append] at h
    obtain - | ⟨rfl, - | ⟨hgap, - | ⟨rfl, - | ⟨hbody, - | ⟨rfl, - | ⟨hw, - | ⟨rfl, - | -⟩⟩⟩⟩⟩⟩⟩ := h
    refine ⟨_, _, _, ⟨?_, hgap, hbody, .brace hkind hw⟩, ?_⟩
    · simp
    · cases captured <;> simp [conditional, hkind, wrappedBody, captured?, Piece.isCaptured]

/-- A conditional can be cut into parts that its pattern accepts. -/
lemma exists_forall₂_of_wraps {kind : StatementKind} {gap body ending text : List Char}
    (h : Wraps kind gap body ending text) (captured : Bool) :
    ∃ parts, List.Forall₂ Piece.Accepts (conditional kind captured) parts ∧
      parts.flatten = text := by
  obtain ⟨rfl, hgap, hbody, hending⟩ := h
  cases hending with
  | @brace _ w hkind hw =>
    refine ⟨[kind.keyword.toList, gap, ['('], body, [')'], w, ['{']], ?_, by simp⟩
    simp only [conditional, hkind, if_false]
    exact .cons rfl (.cons hgap (.cons rfl (.cons hbody (.cons rfl (.cons hw (.cons rfl .nil))))))
  | @elseBrace w w' hw hw' =>
    refine ⟨["guard".toList, gap, ['('], body, [')'], w, "else".toList, w', ['{']], ?_, ?_⟩
    · exact .cons rfl (.cons hgap (.cons rfl (.cons hbody (.cons rfl (.cons hw (.cons rfl
        (.cons hw' (.cons rfl .nil))))))))
    · simp [StatementKind.keyword]

/-- A pattern of a conditional matches at the front of a text exactly where the text begins with a
conditional, and it records the body of that conditional. -/
theorem match?_conditional_eq_some_iff {kind : StatementKind} {captured : Bool}
    {kindAt : Nat → Swift.TokenKind} {start : Nat} {cs : List Char} {m : Match} :
    (conditional kind captured).match? kindAt start cs = some m ↔
      m.start = start ∧ m.kind = kindAt start ∧ (∃ rest, cs = m.text ++ rest) ∧
        ∃ gap body ending, Wraps kind gap body ending m.text ∧
          m.captured = if captured then some body else none := by
  constructor
  · intro h
    obtain ⟨parts, hparts, rfl⟩ := Option.map_eq_some_iff.mp h
    obtain ⟨hacc, hrest⟩ := forall₂_accepts_of_split? hparts
    exact ⟨rfl, rfl, hrest, exists_wraps_of_forall₂ hacc⟩
  · rintro ⟨rfl, hkind, ⟨rest, rfl⟩, gap, body, ending, hwraps, hcaptured⟩
    obtain ⟨parts, hacc, hflat⟩ := exists_forall₂_of_wraps hwraps captured
    -- The search returns some cut; both cuts are the same text with the same body.
    obtain ⟨found, hfound⟩ := Option.isSome_iff_exists.mp (isSome_split? hacc rest)
    obtain ⟨hacc', rest', hrest'⟩ := forall₂_accepts_of_split? hfound
    obtain ⟨gap', body', ending', hwraps', hcaptured'⟩ := exists_wraps_of_forall₂ hacc'
    rw [hflat] at hfound hrest'
    have htext := hwraps.text_unique hwraps' hrest'
    obtain ⟨-, rfl, -⟩ := (htext ▸ hwraps).parts_unique hwraps'
    cases m
    simp_all [Pattern.match?]

end Pattern

end ParenLint
