import Mathlib.Data.List.Infix
import Mathlib.Tactic.Lemma
import Mathlib.Tactic.SplitIfs
import ParenLint.Proofs.Text.Stretch
import ParenLint.Suppression.Command

/-!
# Commands written and read back

A command is written as the word that introduces it, its action, its modifier if it has one, and the
names of its rules behind gaps of any width. In a text in which the word occurs nowhere else, the
command is all that is read.
-/

namespace ParenLint.Command

open ParenLint.Text

variable {c : Char} {cs front rest : List Char}

/-! ### The text of a command -/

/-- The name of a rule behind a gap. -/
structure SpacedName where
  gap : List Char
  name : List Char
  gap_ne_nil : gap ≠ []
  isGap_gap : ∀ c ∈ gap, isGap c = true
  name_ne_nil : name ≠ []
  isRuleChar_name : ∀ c ∈ name, isRuleChar c = true

/-- The characters of a name and of the gap in front of it. -/
def SpacedName.chars (r : SpacedName) : List Char := r.gap ++ r.name

/-- The characters of a modifier, which a colon introduces. -/
def modifierChars : Option CommandModifier → List Char
  | none => []
  | some m => ':' :: m.name.toList

/-- A command as it is written, with the gaps that it has. -/
structure Spelling where
  action : CommandAction
  modifier : Option CommandModifier
  rules : List SpacedName
  rules_ne_nil : rules ≠ []

namespace Spelling

/-- The characters of a command behind the word that introduces it. -/
def details (s : Spelling) : List Char :=
  s.action.name.toList ++ (modifierChars s.modifier ++ s.rules.flatMap SpacedName.chars)

/-- The characters of a command. -/
def chars (s : Spelling) : List Char := introduction ++ s.details

/-- The command that is written, if its text begins at the given place. -/
def command (s : Spelling) (place : Int × Int) : Command :=
  ⟨s.action, s.rules.map fun r => String.ofList r.name, place.1, place.2, s.modifier⟩

end Spelling

/-! ### Names of rules -/

lemma isRuleChar_of_isGap (h : isGap c = true) : isRuleChar c = false := by
  rcases of_decide_eq_true h with rfl | rfl <;> rfl

/-- The text does not go on with the names of rules. -/
def EndsNames (rest : List Char) : Prop :=
  ∀ c ∈ (rest.dropWhile isGap).head?, isRuleChar c = false

lemma EndsNames.isRuleChar_head (h : EndsNames rest) (hc : c ∈ rest.head?) :
    isRuleChar c = false := by
  cases rest with
  | nil => cases hc
  | cons d rest =>
    obtain rfl : d = c := by simpa using hc
    cases hgap : isGap d with
    | true => exact isRuleChar_of_isGap hgap
    | false => exact h d (by simp [hgap])

lemma EndsNames.ruleNames_eq (h : EndsNames rest) : ruleNames rest = ([], rest) := by
  cases rest with
  | nil => rw [ruleNames]
  | cons c rest =>
    rw [ruleNames, if_neg]
    rintro ⟨hgap, hname⟩
    rw [EndsNames, List.dropWhile_cons_of_pos hgap] at h
    cases hrest : rest.dropWhile isGap with
    | nil => simp [hrest] at hname
    | cons d tail => simp [hrest, h d (by simp [hrest])] at hname

/-- Punctuation ends names wherever the end of the text does. -/
lemma EndsNames.append (h : EndsNames rest) {back : List Char}
    (hback : ∀ c ∈ back, isGap c = false ∧ isRuleChar c = false) : EndsNames (rest ++ back) := by
  have hkeep : back.dropWhile isGap = back := by
    cases back with
    | nil => rfl
    | cons c back => exact List.dropWhile_cons_of_neg (by simp [hback c List.mem_cons_self])
  intro c hc
  rw [List.dropWhile_append, hkeep] at hc
  cases hrest : rest.dropWhile isGap with
  | nil =>
    rw [hrest] at hc
    exact (hback c (List.mem_of_mem_head? hc)).2
  | cons d tail =>
    rw [hrest] at hc
    exact h c (by rw [hrest]; exact hc)

lemma SpacedName.isGap_head (r : SpacedName) (hc : c ∈ (r.chars ++ rest).head?) :
    isGap c = true := by
  obtain ⟨g, gs, hgap⟩ := List.exists_cons_of_ne_nil r.gap_ne_nil
  obtain rfl : g = c := by simpa [SpacedName.chars, hgap] using hc
  exact r.isGap_gap g (hgap ▸ List.mem_cons_self)

/-- Behind a name the text goes on with a gap or with what is no name. -/
lemma isRuleChar_head_flatMap (rules : List SpacedName) (h : EndsNames rest)
    (hc : c ∈ (rules.flatMap SpacedName.chars ++ rest).head?) : isRuleChar c = false := by
  cases rules with
  | nil => exact h.isRuleChar_head hc
  | cons r rules =>
    rw [List.flatMap_cons, List.append_assoc] at hc
    exact isRuleChar_of_isGap (r.isGap_head hc)

/-- The names of rules are read to the last one, whatever the gaps are. -/
lemma ruleNames_flatMap (rules : List SpacedName) (h : EndsNames rest) :
    ruleNames (rules.flatMap SpacedName.chars ++ rest) =
      (rules.map fun r => String.ofList r.name, rest) := by
  induction rules with
  | nil => exact h.ruleNames_eq
  | cons r rules ih =>
    have hbehind := fun c => isRuleChar_head_flatMap (c := c) rules h
    rw [List.flatMap_cons, List.append_assoc, SpacedName.chars, List.append_assoc]
    generalize rules.flatMap SpacedName.chars ++ rest = behind at ih hbehind
    obtain ⟨g, gs, hgap⟩ := List.exists_cons_of_ne_nil r.gap_ne_nil
    obtain ⟨x, xs, hname⟩ := List.exists_cons_of_ne_nil r.name_ne_nil
    have hisGap := r.isGap_gap
    have hisRuleChar := r.isRuleChar_name
    have hx : isGap x = false := by
      cases hgap : isGap x with
      | false => rfl
      | true =>
        have hrule := hisRuleChar x (hname ▸ List.mem_cons_self)
        rw [isRuleChar_of_isGap hgap] at hrule
        cases hrule
    have hskip : (gs ++ (r.name ++ behind)).dropWhile isGap = r.name ++ behind :=
      dropWhile_stretch (fun c hc => hisGap c (hgap ▸ List.mem_cons_of_mem g hc))
        (by simp [hname, hx])
    have htake : (r.name ++ behind).takeWhile isRuleChar = r.name :=
      takeWhile_stretch hisRuleChar hbehind
    have hdrop : (r.name ++ behind).dropWhile isRuleChar = behind :=
      dropWhile_stretch hisRuleChar hbehind
    rw [hgap, List.cons_append, ruleNames, hskip, htake, hdrop, ih,
      if_pos ⟨hisGap g (hgap ▸ List.mem_cons_self), r.name_ne_nil⟩]
    rfl

/-! ### One command -/

lemma action?_name_append (a : CommandAction) (rest : List Char) :
    action? (a.name.toList ++ rest) = some (a, rest) := by
  cases a <;> simp [action?, CommandAction.all, CommandAction.name, behind?]

lemma modifier?_modifierChars (m : CommandModifier) (rest : List Char) :
    modifier? (modifierChars (some m) ++ rest) = some (m, rest) := by
  cases m <;> simp [modifier?, modifierChars, CommandModifier.all, CommandModifier.name, behind?]

lemma modifier?_eq_none (h : ∀ c ∈ cs.head?, isGap c = true) : modifier? cs = none := by
  have hcolon : ∀ tail, cs ≠ ':' :: tail := by
    rintro tail rfl
    cases h ':' rfl
  have hprefix : ∀ word : List Char, behind? (':' :: word) cs = none := by
    intro word
    cases cs with
    | nil => simp [behind?]
    | cons c cs =>
      have hc : c ≠ ':' := fun heq => hcolon cs (by rw [heq])
      simp [behind?, Ne.symm hc]
  simp [modifier?, CommandModifier.all, hprefix]

lemma behind?_append (word rest : List Char) : behind? word (word ++ rest) = some rest := by
  simp [behind?]

/-- Whether `c` may stand in the text of a command. -/
def isCommandChar (c : Char) : Bool := isRuleChar c || isGap c || c = ':'

namespace Spelling

lemma chars_ne_nil (s : Spelling) : s.chars ≠ [] :=
  List.append_ne_nil_of_left_ne_nil (by decide) _

/-- Commands are written with the characters of names, gaps and colons. -/
lemma isCommandChar_of_mem (s : Spelling) (hc : c ∈ s.chars) : isCommandChar c = true := by
  have hword : ∀ c ∈ introduction, isCommandChar c = true := List.all_eq_true.mp rfl
  have haction : ∀ c ∈ s.action.name.toList, isCommandChar c = true :=
    List.all_eq_true.mp (by cases s.action <;> rfl)
  have hmodifier : ∀ c ∈ modifierChars s.modifier, isCommandChar c = true :=
    List.all_eq_true.mp (by rcases s.modifier with _ | _ | _ | _ <;> rfl)
  rw [chars, details, List.mem_append, List.mem_append, List.mem_append] at hc
  rcases hc with hc | hc | hc | hc
  · exact hword c hc
  · exact haction c hc
  · exact hmodifier c hc
  · obtain ⟨r, -, hc⟩ := List.mem_flatMap.mp hc
    rcases List.mem_append.mp hc with hc | hc
    · simp [isCommandChar, r.isGap_gap c hc]
    · simp [isCommandChar, r.isRuleChar_name c hc]

/-- No character of a command ends a line or belongs to a delimiter. -/
lemma not_mem_chars (s : Spelling) (hc : c ∈ ['\n', '/', '*', '"', '\\']) : c ∉ s.chars := by
  have hmarks : ∀ d ∈ ['\n', '/', '*', '"', '\\'], (!isCommandChar d) = true :=
    List.all_eq_true.mp rfl
  intro hmem
  have hmark := hmarks c hc
  rw [s.isCommandChar_of_mem hmem] at hmark
  cases hmark

lemma isGap_head (s : Spelling) (rest : List Char)
    (hc : c ∈ (s.rules.flatMap SpacedName.chars ++ rest).head?) : isGap c = true := by
  obtain ⟨r, rules, hrules⟩ := List.exists_cons_of_ne_nil s.rules_ne_nil
  rw [hrules, List.flatMap_cons, List.append_assoc] at hc
  exact r.isGap_head hc

/-- A command is read to its end. -/
theorem read?_chars (s : Spelling) (place : Int × Int) (h : EndsNames rest) :
    read? place (s.chars ++ rest) = some (s.command place, rest) := by
  have hnames := ruleNames_flatMap s.rules h
  have hnone := modifier?_eq_none fun c => s.isGap_head (c := c) rest
  obtain ⟨r, rules, hrules⟩ := List.exists_cons_of_ne_nil s.rules_ne_nil
  have hcommand : ∀ modifier, s.modifier = modifier → s.command place =
      ⟨s.action, String.ofList r.name :: rules.map fun r => String.ofList r.name, place.1, place.2,
        modifier⟩ := by
    rintro modifier rfl
    rw [command, hrules, List.map_cons]
  simp only [read?, chars, details, List.append_assoc, behind?_append, action?_name_append,
    Option.bind_eq_bind, Option.bind_some]
  rw [hrules, List.map_cons, ← hrules] at hnames
  cases hmodifier : s.modifier with
  | none => simp only [modifierChars, List.nil_append, hnone, hnames, hcommand none hmodifier]
  | some m => simp only [modifier?_modifierChars, hnames, hcommand (some m) hmodifier]

end Spelling

/-! ### A command in a text -/

/-- The word begins with a letter that it has nowhere else. -/
lemma not_mem_tail_introduction : 's' ∉ introduction.tail := by decide

/-- Characters that the word does not have do not make it up with what follows them. -/
lemma not_infix_append_left (hfront : ∀ c ∈ front, c ∉ introduction)
    (h : ¬ introduction <:+: cs) : ¬ introduction <:+: front ++ cs := by
  induction front with
  | nil => exact h
  | cons c front ih =>
    rw [List.cons_append, List.infix_cons_iff, not_or]
    refine ⟨?_, ih fun d hd => hfront d (List.mem_cons_of_mem c hd)⟩
    intro hprefix
    have hc : 's' = c := (List.cons_prefix_cons.mp hprefix).1
    exact hfront c List.mem_cons_self (hc ▸ by decide)

lemma not_infix_append_right {back : List Char} (hback : ∀ c ∈ back, c ∉ introduction)
    (h : ¬ introduction <:+: cs) : ¬ introduction <:+: cs ++ back := by
  induction back using List.reverseRecOn with
  | nil => rwa [List.append_nil]
  | append_singleton back c ih =>
    rw [← List.append_assoc, List.infix_concat_iff, not_or]
    refine ⟨?_, ih fun d hd => hback d (List.mem_append_left _ hd)⟩
    intro hsuffix
    rcases List.suffix_concat_iff.mp hsuffix with hnil | ⟨word, hword, -⟩
    · cases hnil
    · exact hback c (by simp) (by simp [hword])

/-- Where the word stands behind a text without it, it begins nowhere in that text. -/
lemma not_prefix_append (h : ¬ introduction <:+: c :: front) (rest : List Char) :
    ¬ introduction <+: c :: (front ++ (introduction ++ rest)) := by
  rw [← List.cons_append]
  intro hprefix
  rcases List.prefix_or_prefix_of_prefix hprefix (List.prefix_append _ _) with
    hinside | ⟨tail, htail⟩
  · exact h hinside.isInfix
  -- The word would overlap itself, but its first letter stands nowhere in the rest of it.
  · cases tail with
    | nil => exact h ⟨[], [], by simpa using htail.symm⟩
    | cons x tail =>
      have hoverlap : c :: front ++ x :: tail <+: c :: front ++ (introduction ++ rest) := by
        rwa [htail]
      rw [List.prefix_append_right_inj] at hoverlap
      obtain rfl : x = 's' := (List.cons_prefix_cons.mp hoverlap).1
      have hmem : 's' ∈ introduction.tail := by
        rw [← htail]
        simp
      exact not_mem_tail_introduction hmem

lemma readFrom_skip (place : Int → Int × Int) (start : Nat)
    (h : ¬ introduction <+: c :: cs) :
    readFrom place start (c :: cs) = readFrom place (start + 1) cs := by
  have hread : read? (place start) (c :: cs) = none := by
    rw [read?, behind?, if_neg fun hprefix => h (List.isPrefixOf_iff_prefix.mp hprefix)]
    rfl
  rw [readFrom, hread]

/-- Nothing is found in a text without the word. -/
lemma readFrom_eq_nil (place : Int → Int × Int) (start : Nat) (h : ¬ introduction <:+: cs) :
    readFrom place start cs = [] := by
  induction cs generalizing start with
  | nil => rw [readFrom]
  | cons c cs ih =>
    rw [readFrom_skip place start fun hprefix => h hprefix.isInfix]
    exact ih (start + 1) fun hpart => h (List.infix_cons hpart)

/-- The search comes to the first place at which the word stands. -/
lemma readFrom_append (place : Int → Int × Int) (start : Nat) (h : ¬ introduction <:+: front)
    (rest : List Char) :
    readFrom place start (front ++ (introduction ++ rest)) =
      readFrom place (start + front.length) (introduction ++ rest) := by
  induction front generalizing start with
  | nil => rfl
  | cons c front ih =>
    have hbehind := ih (start + 1) fun hpart => h (List.infix_cons hpart)
    rw [List.cons_append, readFrom_skip place start (not_prefix_append h rest), hbehind,
      List.length_cons, Nat.add_assoc, Nat.add_comm 1]

namespace Spelling

/-- In a text that has the word only where a command is written, that command is all that is read.
It is placed where its own text begins. -/
theorem readFrom_chars (s : Spelling) (place : Int → Int × Int) (start : Nat)
    (hfront : ¬ introduction <:+: front) (hrest : ¬ introduction <:+: rest)
    (hends : EndsNames rest) :
    readFrom place start (front ++ (s.chars ++ rest)) =
      [s.command (place (start + front.length : Nat))] := by
  have hread := s.read?_chars (place (start + front.length : Nat)) hends
  obtain ⟨c, cs, hchars⟩ : ∃ c cs, s.chars = c :: cs := ⟨_, _, rfl⟩
  have hdrop : (cs ++ rest).drop ((cs ++ rest).length + 1 - rest.length - 1) = rest := by
    rw [List.length_append, Nat.add_right_comm, Nat.add_sub_cancel, Nat.add_sub_cancel,
      List.drop_left]
  rw [chars, List.append_assoc, readFrom_append place start hfront, ← List.append_assoc, ← chars]
  rw [hchars, List.cons_append] at hread ⊢
  rw [readFrom, hread]
  simp only [hdrop, readFrom_eq_nil _ _ hrest]

end Spelling

end ParenLint.Command
