import ParenLint.Proofs.Statement.Pairing
import ParenLint.Proofs.Statement.Shadowing
import ParenLint.Swift.Lexeme

/-!
# Parentheses that stay open

A match is a wrapped conditional exactly if the parenthesis behind its keyword is still open at its
last closing one. This can be told from the prefixes of the match, from the parentheses that are open
where the last one closes, and, if the match closes as many as it opens, from the pairs.
-/

namespace ParenLint

open ParenLint.Swift

/-! ### The parenthesis behind the keyword -/

/-- A character that occurs in a text has a last occurrence. -/
lemma exists_last_of_mem {c : Char} {text : List Char} (h : c ∈ text) :
    ∃ front after, text = front ++ c :: after ∧ c ∉ after := by
  obtain ⟨after, front, hreverse, hlast⟩ := List.eq_append_cons_of_mem (List.mem_reverse.mpr h)
  refine ⟨front.reverse, after.reverse, ?_, by simpa using hlast⟩
  simpa using congrArg List.reverse hreverse

/-- Between the first opening and the last closing parenthesis of a text, what is enclosed stays
above depth zero exactly if every prefix that ends there opens more than it closes. -/
lemma staysAbove_iff_forall_prefix {lead body ending : List Char} (hlead : '(' ∉ lead)
    (hlead' : ')' ∉ lead) (hending : ')' ∉ ending) :
    StaysAbove 0 body ↔ ∀ a b, lead ++ '(' :: body ++ ')' :: ending = a ++ b → '(' ∈ a → ')' ∈ b →
      a.count ')' < a.count '(' := by
  have hcount : ∀ p : List Char, (lead ++ '(' :: p).count ')' < (lead ++ '(' :: p).count '(' ↔
      p.count ')' ≤ p.count '(' := by
    intro p
    simp only [List.count_append, List.count_eq_zero_of_not_mem hlead,
      List.count_eq_zero_of_not_mem hlead', List.count_cons_self,
      List.count_cons_of_ne (by decide : '(' ≠ ')'), Nat.zero_add, Nat.lt_succ_iff]
  constructor
  · intro habove a b hsplit ha hb
    -- The prefix ends inside the body, since it has the first parenthesis and leaves the last one.
    obtain ⟨lead', p, rfl, hfirst⟩ := List.eq_append_cons_of_mem ha
    obtain ⟨q, ending', rfl, hlast⟩ := exists_last_of_mem hb
    simp only [List.append_assoc, List.cons_append] at hsplit
    obtain ⟨rfl, hrest⟩ := append_cons_inj_of_first hlead hfirst hsplit
    rw [← List.append_assoc] at hrest
    obtain ⟨rfl, -⟩ := append_cons_inj_of_last hending hlast hrest
    rw [hcount]
    simpa using habove p (List.prefix_append p q)
  · rintro hprefixes p ⟨q, rfl⟩
    have hp := hprefixes (lead ++ '(' :: p) (q ++ ')' :: ending) (by simp) (by simp) (by simp)
    rw [hcount] at hp
    simpa using hp

namespace Wraps

variable {kind : StatementKind} {gap body ending text : List Char}

/-- A conditional closes as many parentheses as it opens exactly if its body does. -/
lemma count_eq_iff (h : Wraps kind gap body ending text) :
    text.count '(' = text.count ')' ↔ body.count '(' = body.count ')' := by
  obtain ⟨front, hfront, -⟩ := h.ending.exists_front
  obtain ⟨hopen, hclose, -, -⟩ := h.ending.not_mem_front hfront
  have hlead : (kind.keyword.toList ++ gap).count '(' = 0 :=
    List.count_eq_zero_of_not_mem (h.not_mem_lead (by decide))
  have hlead' : (kind.keyword.toList ++ gap).count ')' = 0 :=
    List.count_eq_zero_of_not_mem (h.not_mem_lead (by decide))
  rw [h.text_eq, hfront]
  generalize kind.keyword.toList ++ gap = lead at hlead hlead' ⊢
  simp [hlead, hlead', List.count_eq_zero_of_not_mem hopen, List.count_eq_zero_of_not_mem hclose]

end Wraps

/-- A match that begins with a keyword is a wrapped conditional exactly if each of its prefixes that
has its first opening parenthesis, but not its last closing one, opens more than it closes; that is,
exactly if the first one is still open at the last one. In a match that closes as many as it opens,
this says that the two are partners. -/
theorem wrapped_iff_first_stays_open {kind : StatementKind} {kindAt : Nat → TokenKind}
    {contents : List Char} {m : Match} (hm : m ∈ (Pattern.statement kind).matches kindAt contents)
    (hkeyword : m.kind = .keyword) :
    ∃ lead body ending, m.text = lead ++ '(' :: body ++ ')' :: ending ∧
      '(' ∉ lead ∧ ')' ∉ ending ∧ (∃ gap, lead = kind.keyword.toList ++ gap ∧
        ∀ c ∈ gap, Text.isBlank c = true) ∧
      (m.isFalsePositive = false ↔ ∀ a b, m.text = a ++ b → '(' ∈ a → ')' ∈ b →
        a.count ')' < a.count '(') ∧
      (m.isFalsePositive = false ↔ lead.length ∈ openedBehind [] 0 (lead ++ '(' :: body)) ∧
      (m.text.count '(' = m.text.count ')' → (m.isFalsePositive = false ↔
        Partners m.text lead.length (lead ++ '(' :: body).length)) := by
  obtain ⟨-, gap, body, ending, -, -, -, -, hwraps⟩ := Pattern.exists_wraps_of_mem_matches hm
  have hwrapped : m.isFalsePositive = false ↔ StaysAbove 0 body := by
    rw [Match.isFalsePositive, hkeyword, hwraps.isFalsePositive_eq_false_iff]
  have hopen : '(' ∉ kind.keyword.toList ++ gap := hwraps.not_mem_lead (by decide)
  have hclose : ')' ∉ kind.keyword.toList ++ gap := hwraps.not_mem_lead (by decide)
  have hending := hwraps.ending.closeParen_not_mem
  refine ⟨kind.keyword.toList ++ gap, body, ending, hwraps.text_eq, hopen, hending,
    ⟨gap, rfl, hwraps.gap_blank⟩, ?_, ?_, ?_⟩
  · rw [hwrapped, hwraps.text_eq, staysAbove_iff_forall_prefix hopen hclose hending]
  · rw [hwrapped, mem_openedBehind_openParen_iff]
  · intro hcount
    rw [hwrapped, hwraps.text_eq]
    constructor
    · intro habove
      have hbalanced : Balanced body := ⟨habove, hwraps.count_eq_iff.mp hcount⟩
      exact partners_iff_head?.mpr ((head?_openedBehind_iff_balanced habove).mpr hbalanced)
    · -- Without a balanced body at hand, the pair itself tells that the first one is still open.
      intro hpartners
      rw [← mem_openedBehind_openParen_iff]
      exact List.mem_of_mem_head? (partners_iff_head?.mp hpartners)

/-- Two calls inside the parentheses of a loop close none that is not their own. -/
theorem first_stays_open_over_calls :
    let contents := "do \x7b\x7d while (f(a) && (b)) \x7b".toList
    let m : Match := ⟨6, "while (f(a) && (b)) \x7b".toList, .keyword, none⟩
    m ∈ (Pattern.statement .while).matches (fun o => Token.kindAt (tokens contents) o) contents ∧
      m.kind = .keyword ∧ m.isFalsePositive = false ∧
      (∀ a b, m.text = a ++ b → '(' ∈ a → ')' ∈ b → a.count ')' < a.count '(') ∧
      Partners m.text 6 18 := by
  intro contents m
  have hm : m ∈ (Pattern.statement .while).matches (fun o => Token.kindAt (tokens contents) o)
      contents := by
    decide +kernel
  have hkeyword : m.kind = .keyword := rfl
  have hwrapped : m.isFalsePositive = false := by decide +kernel
  obtain ⟨lead, body, ending, htext, hlead, hending, -, hprefixes, -, hpartners⟩ :=
    wrapped_iff_first_stays_open hm hkeyword
  have htext' : m.text = "while ".toList ++ '(' :: ("f(a) && (b)".toList ++ ')' :: " \x7b".toList) :=
    rfl
  rw [List.append_assoc, htext'] at htext
  obtain ⟨rfl, hrest⟩ := append_cons_inj_of_first (by decide) hlead htext
  obtain ⟨rfl, -⟩ := append_cons_inj_of_last (by decide) hending hrest
  exact ⟨hm, hkeyword, hwrapped, hprefixes.mp hwrapped, (hpartners (by decide)).mp hwrapped⟩

end ParenLint
