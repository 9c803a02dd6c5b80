import Mathlib.Data.List.Infix
import ParenLint.Proofs.Statement.Grammar
import ParenLint.Statement.Wrapping

/-!
# Nesting of parentheses

A text stays above a depth if no prefix of it closes more parentheses than that depth and its own
opening ones allow. This is what the test for early closing decides about the body of a match: the
parenthesis behind the keyword is open up to the last closing one exactly when the body stays above
depth zero.
-/

namespace ParenLint

open ParenLint.Swift

/-- No prefix of the text closes more than `depth` parentheses beyond those that it opens. -/
def StaysAbove (depth : Nat) (text : List Char) : Prop :=
  ∀ a, a <+: text → a.count ')' ≤ depth + a.count '('

/-- Every parenthesis of the text has its partner in the text. -/
structure Balanced (text : List Char) : Prop where
  staysAbove : StaysAbove 0 text
  count_eq : text.count '(' = text.count ')'

instance (depth : Nat) (text : List Char) : Decidable (StaysAbove depth text) :=
  decidable_of_iff (∀ a ∈ text.inits, a.count ')' ≤ depth + a.count '(') (by simp [StaysAbove])

lemma balanced_iff {text : List Char} :
    Balanced text ↔ StaysAbove 0 text ∧ text.count '(' = text.count ')' :=
  ⟨fun h => ⟨h.staysAbove, h.count_eq⟩, fun h => ⟨h.1, h.2⟩⟩

instance (text : List Char) : Decidable (Balanced text) := decidable_of_iff' _ balanced_iff

namespace StaysAbove

variable {depth depth' : Nat} {c : Char} {text a b : List Char}

@[simp] lemma nil : StaysAbove depth [] := by
  intro a ha
  simp [List.prefix_nil.mp ha]

lemma cons_iff : StaysAbove depth (c :: text) ↔
    ∀ a, a <+: text → (c :: a).count ')' ≤ depth + (c :: a).count '(' := by
  constructor
  · intro h a ha
    exact h (c :: a) (List.cons_prefix_cons.mpr ⟨rfl, ha⟩)
  · intro h a ha
    obtain rfl | ⟨a', rfl, ha'⟩ := List.prefix_cons_iff.mp ha
    · simp
    · exact h a' ha'

@[simp] lemma openParen_iff : StaysAbove depth ('(' :: text) ↔ StaysAbove (depth + 1) text := by
  rw [cons_iff, StaysAbove]
  simp [Nat.add_assoc, Nat.add_comm 1]

@[simp] lemma closeParen_iff :
    StaysAbove (depth + 1) (')' :: text) ↔ StaysAbove depth text := by
  rw [cons_iff, StaysAbove]
  simp [Nat.add_right_comm]

@[simp] lemma not_closeParen : ¬ StaysAbove 0 (')' :: text) := by
  intro h
  simpa using h [')'] ⟨text, rfl⟩

lemma other_iff (hopen : c ≠ '(') (hclose : c ≠ ')') :
    StaysAbove depth (c :: text) ↔ StaysAbove depth text := by
  rw [cons_iff, StaysAbove]
  simp [List.count_cons_of_ne hopen, List.count_cons_of_ne hclose]

lemma mono (h : StaysAbove depth text) (hle : depth ≤ depth') : StaysAbove depth' text :=
  fun a ha => Nat.le_trans (h a ha) (Nat.add_le_add_right hle _)

/-- Behind `a`, the depth is the one before it with what `a` opens and without what it closes. -/
lemma append_iff (h : depth + a.count '(' = depth' + a.count ')') :
    StaysAbove depth (a ++ b) ↔ StaysAbove depth a ∧ StaysAbove depth' b := by
  constructor
  · intro hab
    refine ⟨fun p hp => hab p (hp.trans (List.prefix_append a b)), ?_⟩
    intro p hp
    have hle := hab (a ++ p) ((List.prefix_append_right_inj a).mpr hp)
    simp only [List.count_append] at hle
    omega
  · rintro ⟨ha, hb⟩ p hp
    obtain hp | hp := List.prefix_or_prefix_of_prefix hp (List.prefix_append a b)
    · exact ha p hp
    · obtain ⟨q, rfl⟩ := hp
      have hle := hb q ((List.prefix_append_right_inj a).mp hp)
      simp only [List.count_append]
      omega

end StaysAbove

/-! ### The parentheses of a text -/

/-- The parentheses of a text, without what stands between them. -/
def parens (text : List Char) : List Char := text.filter fun c => c = '(' ∨ c = ')'

@[simp] lemma parens_append (a b : List Char) : parens (a ++ b) = parens a ++ parens b :=
  List.filter_append ..

@[simp] lemma parens_openParen (text : List Char) : parens ('(' :: text) = '(' :: parens text := rfl

@[simp] lemma parens_closeParen (text : List Char) :
    parens (')' :: text) = ')' :: parens text := rfl

@[simp] lemma parens_other {c : Char} (hopen : c ≠ '(') (hclose : c ≠ ')') (text : List Char) :
    parens (c :: text) = parens text := by
  simp [parens, hopen, hclose]

lemma parens_eq_nil {text : List Char} (hopen : '(' ∉ text) (hclose : ')' ∉ text) :
    parens text = [] := by
  rw [parens, List.filter_eq_nil_iff]
  rintro c hc hparen
  obtain rfl | rfl := of_decide_eq_true hparen
  · exact hopen hc
  · exact hclose hc

lemma count_openParen_parens (text : List Char) : (parens text).count '(' = text.count '(' :=
  List.count_filter rfl

lemma count_closeParen_parens (text : List Char) : (parens text).count ')' = text.count ')' :=
  List.count_filter rfl

/-- How deep a text goes depends on its parentheses only. -/
lemma staysAbove_parens_iff {depth : Nat} {text : List Char} :
    StaysAbove depth (parens text) ↔ StaysAbove depth text := by
  induction text generalizing depth with
  | nil => rfl
  | cons c text ih =>
    by_cases hopen : c = '('
    · subst hopen
      rw [parens_openParen, StaysAbove.openParen_iff, StaysAbove.openParen_iff, ih]
    · by_cases hclose : c = ')'
      · subst hclose
        cases depth with
        | zero => simp
        | succ depth =>
          rw [parens_closeParen, StaysAbove.closeParen_iff, StaysAbove.closeParen_iff, ih]
      · rw [parens_other hopen hclose, StaysAbove.other_iff hopen hclose, ih]

lemma balanced_parens_iff {text : List Char} : Balanced (parens text) ↔ Balanced text := by
  rw [balanced_iff, balanced_iff, staysAbove_parens_iff, count_openParen_parens,
    count_closeParen_parens]

/-- A balanced text stays balanced without two parentheses if the text between them does not close
the first. -/
theorem Balanced.of_parenthesized {before body after : List Char} (hbody : StaysAbove 0 body)
    (h : Balanced (before ++ '(' :: body ++ ')' :: after)) :
    Balanced (before ++ body ++ after) := by
  obtain ⟨habove, hcount⟩ := h
  -- The depth behind `before`, and the one behind `body` inside the two parentheses.
  obtain ⟨depth, hdepth⟩ : ∃ depth, 0 + before.count '(' = depth + before.count ')' := by
    have hle := habove before ⟨'(' :: body ++ ')' :: after, by simp⟩
    exact ⟨before.count '(' - before.count ')', by omega⟩
  obtain ⟨inner, hinner⟩ : ∃ inner, depth + body.count '(' = inner + body.count ')' := by
    have hle := hbody body List.prefix_rfl
    exact ⟨depth + body.count '(' - body.count ')', by omega⟩
  have hinside : depth + 1 + body.count '(' = inner + 1 + body.count ')' := by omega
  rw [List.append_assoc, StaysAbove.append_iff hdepth, List.cons_append, StaysAbove.openParen_iff,
    StaysAbove.append_iff hinside, StaysAbove.closeParen_iff] at habove
  obtain ⟨hbefore, -, hafter⟩ := habove
  constructor
  · rw [List.append_assoc, StaysAbove.append_iff hdepth, StaysAbove.append_iff hinner]
    exact ⟨hbefore, hbody.mono (Nat.zero_le depth), hafter⟩
  · simp [List.count_append] at hcount ⊢
    omega

/-! ### Early closing -/

lemma closesEarly_append {depth : Int} {a : List Char} (hopen : '(' ∉ a) (hclose : ')' ∉ a)
    (text : List Char) : closesEarly depth (a ++ text) = closesEarly depth text := by
  induction a with
  | nil => rfl
  | cons c a ih =>
    simp only [List.mem_cons, not_or] at hopen hclose
    simp [closesEarly, Ne.symm hopen.1, Ne.symm hclose.1, ih hopen.2 hclose.2]

lemma closesEarly_of_not_mem {depth : Int} {text : List Char} (h : ')' ∉ text) :
    closesEarly depth text = false := by
  induction text generalizing depth with
  | nil => rfl
  | cons c text ih =>
    simp only [List.mem_cons, not_or] at h
    simp [closesEarly, Ne.symm h.1, ih h.2]

/-- Inside `depth + 1` parentheses, none but the last closing one brings the depth to zero exactly
when the text before it stays above `depth`. -/
theorem closesEarly_eq_false_iff {body ending : List Char} (hending : ')' ∉ ending)
    (depth : Nat) : closesEarly (depth + 1) (body ++ ')' :: ending) = false ↔
      StaysAbove depth body := by
  induction body generalizing depth with
  | nil => simp [closesEarly, hending, closesEarly_of_not_mem hending]
  | cons c body ih =>
    rw [List.cons_append, closesEarly]
    split_ifs with hclose hopen
    · subst hclose
      cases depth with
      | zero => simp
      | succ depth =>
        have hdepth : (depth : Int) + 1 + 1 ≠ 1 := by omega
        simpa [hdepth] using ih depth
    · subst hopen
      simpa using ih (depth + 1)
    · rw [ih depth, StaysAbove.other_iff hopen hclose]

/-- Every match that does not begin with a keyword is a false positive. -/
lemma Match.kind_of_isFalsePositive_eq_false {m : Match} (h : m.isFalsePositive = false) :
    m.kind = .keyword := by
  by_contra hne
  simp [Match.isFalsePositive, ParenLint.isFalsePositive, hne] at h

/-- A match that begins with a keyword is a wrapped conditional exactly when no parenthesis of its
body closes the one behind the keyword. -/
theorem Wraps.isFalsePositive_eq_false_iff {kind : StatementKind}
    {gap body ending text : List Char} (h : Wraps kind gap body ending text) :
    isFalsePositive text (some .keyword) = false ↔ StaysAbove 0 body := by
  have hopen : '(' ∉ kind.keyword.toList ++ gap := h.not_mem_lead (by decide)
  have hclose : ')' ∉ kind.keyword.toList ++ gap := h.not_mem_lead (by decide)
  rw [← closesEarly_eq_false_iff h.ending.closeParen_not_mem, h.text_eq, isFalsePositive,
    List.append_assoc, closesEarly_append hopen hclose]
  simp [closesEarly]

end ParenLint
