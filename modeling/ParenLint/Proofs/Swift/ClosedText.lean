import ParenLint.Proofs.Swift.Classification
import ParenLint.Proofs.Swift.LineEnd

/-!
# Text that leaves nothing open

A text that ends in a newline and leaves neither a block comment nor a string between triple quotes
open is read alike whatever follows it, and what follows it is read as if it stood alone.
-/

namespace ParenLint.Swift

variable {cs front rest : List Char}

/-- Some offset that lies inside no token begins a block comment or a string between triple quotes
that is still open at the end of the text. -/
def LeavesOpen (text : List Char) : Prop :=
  ∃ i < text.length, (∀ t ∈ tokens text, ¬ (t.start < i ∧ i < t.stop)) ∧
    beginsOpen (text.drop i) = true

instance (text : List Char) : Decidable (LeavesOpen text) :=
  inferInstanceAs (Decidable (∃ i < text.length, _))

/-! ### Scans of the text -/

/-- A scan stands at no offset inside a token, so what it finds open there the text leaves open. -/
lemma Scan.leavesOpen {parts : List Part} (h : Scan front cs parts)
    (hopen : beginsOpen cs = true) : LeavesOpen (front ++ cs) := by
  have hpos : 0 < cs.length := by
    apply List.length_pos_iff.mpr
    rintro rfl
    cases hopen
  refine ⟨front.length, ?_, h.not_reaches, by rwa [List.drop_left]⟩
  rw [List.length_append]
  omega

/-- A scan stays as it is if at each place where it stands the same lexeme begins. -/
lemma Scan.append_rest {parts : List Part} (h : Scan front [] parts)
    (hsame : ∀ lead cs ps, front = lead ++ cs → cs ≠ [] → Scan lead cs ps →
      lexeme? (cs ++ rest) = lexeme? cs) : Scan front rest parts := by
  generalize hnil : [] = behind at h
  induction h with
  | nil _ => exact .nil rest
  | @token text front _ kind parts hlexeme hscan ih =>
    subst hnil
    rw [List.append_nil] at hlexeme
    have hne : text ++ front ≠ [] := by
      intro hnil
      rw [hnil] at hlexeme
      cases hlexeme
    refine .token ((hsame [] _ [] rfl hne (.nil _)).trans hlexeme) (ih ?_ rfl)
    rintro lead cs ps rfl hcs hlead
    refine hsame (text ++ lead) cs (.token kind text :: ps) (List.append_assoc _ _ _).symm hcs ?_
    exact .token (by rwa [List.append_assoc]) hlead
  | @loose c front _ parts hlexeme hscan ih =>
    subst hnil
    rw [List.append_nil] at hlexeme
    have hne : c :: front ≠ [] := List.cons_ne_nil c front
    refine .loose ((hsame [] _ [] rfl hne (.nil _)).trans hlexeme) (ih ?_ rfl)
    rintro lead cs ps rfl hcs hlead
    exact hsame (c :: lead) cs (.loose c :: ps) rfl hcs (.loose hlexeme hlead)

/-! ### Tokens of the text and of what follows it -/

namespace Token

/-- The token in a text that stands behind `n` other characters. -/
def shift (n : Nat) (t : Token) : Token := { t with start := n + t.start }

lemma covers_shift_iff {n : Nat} {t : Token} {offset : Int} :
    (t.shift n).Covers offset ↔ t.Covers (offset - n) := by
  simp only [Covers, stop, shift]
  omega

lemma le_start_of_mem_map_shift {n : Nat} {ts : List Token} {t : Token}
    (ht : t ∈ ts.map (shift n)) : n ≤ t.start := by
  obtain ⟨u, -, rfl⟩ := List.mem_map.mp ht
  exact Nat.le_add_right n u.start

lemma kindAt_map_shift (n : Nat) (ts : List Token) (offset : Int) :
    kindAt (ts.map (shift n)) offset = kindAt ts (offset - n) := by
  have hfind : (ts.map (shift n)).find? (fun t => t.Covers offset) =
      (ts.find? fun t => t.Covers (offset - n)).map (shift n) := by
    simp only [List.find?_map, Function.comp_def, covers_shift_iff]
  rw [kindAt, kindAt, hfind]
  cases ts.find? fun t => t.Covers (offset - n) <;> rfl

variable {ts us : List Token} {offset : Int} {n : Nat}

/-- Tokens that have ended do not matter. -/
lemma kindAt_append_of_le (hts : ∀ t ∈ ts, t.stop ≤ n) (hle : n ≤ offset) :
    kindAt (ts ++ us) offset = kindAt us offset := by
  have hfind : ts.find? (fun t => t.Covers offset) = none := by
    rw [List.find?_eq_none]
    intro t ht
    have hstop := hts t ht
    rw [decide_eq_true_eq]
    rintro ⟨-, hlt⟩
    omega
  rw [kindAt, kindAt, List.find?_append, hfind, Option.none_or]

/-- Tokens that have not begun do not matter. -/
lemma kindAt_append_of_lt (hus : ∀ u ∈ us, n ≤ u.start) (hlt : offset < n) :
    kindAt (ts ++ us) offset = kindAt ts offset := by
  have hfind : us.find? (fun u => u.Covers offset) = none := by
    rw [List.find?_eq_none]
    intro u hu
    have hstart := hus u hu
    rw [decide_eq_true_eq]
    rintro ⟨hle, -⟩
    omega
  rw [kindAt, kindAt, List.find?_append, hfind, Option.or_none]

end Token

lemma tokensFrom_add (n start : Nat) (cs : List Char) :
    tokensFrom (n + start) cs = (tokensFrom start cs).map (Token.shift n) := by
  fun_induction tokensFrom start cs with
  | case1 => rw [tokensFrom_nil, List.map_nil]
  | case2 start c cs kind k hlexeme ih =>
    rw [tokensFrom, hlexeme, List.map_cons, ← ih, ← Nat.add_assoc]
    rfl
  | case3 start c cs hlexeme ih =>
    rw [tokensFrom_of_none hlexeme, ← ih, Nat.add_assoc]

/-- The tokens of a text that leaves nothing open stay the same, and those of what follows it are
shifted. -/
lemma tokens_append (hline : front.getLast? = some '\n') (hclosed : ¬ LeavesOpen front)
    (rest : List Char) :
    tokens (front ++ rest) = tokens front ++ (tokens rest).map (Token.shift front.length) := by
  obtain ⟨parts, hscan⟩ := Scan.exists_scan_nil front
  have hscan' : Scan front rest parts := by
    apply hscan.append_rest
    rintro lead cs ps rfl hne hlead
    refine lexeme?_append (getLast?_of_append hline hne) ?_ rest
    rw [← Bool.not_eq_true]
    exact fun hopen => hclosed (hlead.leavesOpen hopen)
  have hrest : tokensFrom (0 + front.length) rest =
      (tokens rest).map (Token.shift front.length) := by
    rw [Nat.add_comm, tokensFrom_add, tokens]
  rw [tokens, hscan'.tokensFrom_eq 0, ← hscan.tokens_eq, hrest]

/-- What a text leaves open can be ended behind it, by a token that reaches over its end. -/
lemma exists_tokens_append_ne (hline : front.getLast? = some '\n') (hopen : LeavesOpen front) :
    ∃ rest,
      tokens (front ++ rest) ≠ tokens front ++ (tokens rest).map (Token.shift front.length) := by
  obtain ⟨i, hi, houtside, hopen⟩ := hopen
  obtain ⟨lead, cs, rfl, rfl⟩ : ∃ lead cs, front = lead ++ cs ∧ lead.length = i :=
    ⟨front.take i, front.drop i, (List.take_append_drop i front).symm,
      List.length_take_of_le (Nat.le_of_lt hi)⟩
  rw [List.drop_left] at hopen
  have hne : cs ≠ [] := by
    rintro rfl
    cases hopen
  obtain ⟨rest, kind, n, hlexeme, hlt⟩ :=
    exists_lexeme?_of_beginsOpen (getLast?_of_append hline hne) hopen
  refine ⟨rest, fun heq => ?_⟩
  have hmem : ∀ t ∈ tokens (lead ++ (cs ++ rest)),
      t ∈ tokens (lead ++ cs) ∨ (lead ++ cs).length ≤ t.start := by
    intro t ht
    rw [← List.append_assoc, heq, List.mem_append] at ht
    exact ht.imp_right Token.le_start_of_mem_map_shift
  obtain ⟨parts, hscan⟩ := Scan.exists_scan lead (cs ++ rest) 0 fun t ht => by
    rw [Nat.zero_add]
    rcases hmem t ht with ht | hle
    · exact houtside t ht
    · omega
  rcases hmem _ (hscan.mem_tokens hlexeme) with ht | hle
  · have hstop : lead.length + n ≤ (lead ++ cs).length := stop_le_length_of_mem_tokens ht
    rw [List.length_append] at hstop
    omega
  · exact absurd hi (Nat.not_lt_of_le hle)

/-- A text that ends in a newline is read alike whatever follows it, and what follows it as if it
stood alone, exactly if the text leaves neither a block comment nor a string between triple quotes
open. In that case the kind at an offset behind the text is that at the same place of what follows,
and the kind at an offset in the text is that in the text alone. -/
theorem closed_text_is_read_alone (hline : front.getLast? = some '\n') :
    (¬ LeavesOpen front ↔ ∀ rest,
      tokens (front ++ rest) = tokens front ++ (tokens rest).map (Token.shift front.length)) ∧
    (¬ LeavesOpen front → ∀ rest (offset : Int),
      (front.length ≤ offset →
        Token.kindAt (tokens (front ++ rest)) offset =
          Token.kindAt (tokens rest) (offset - front.length)) ∧
      (offset < front.length →
        Token.kindAt (tokens (front ++ rest)) offset = Token.kindAt (tokens front) offset)) := by
  refine ⟨⟨tokens_append hline, ?_⟩, ?_⟩
  · intro hall hopen
    obtain ⟨rest, hne⟩ := exists_tokens_append_ne hline hopen
    exact hne (hall rest)
  · intro hclosed rest offset
    rw [tokens_append hline hclosed rest]
    constructor
    · intro hle
      rw [Token.kindAt_append_of_le (fun t ht => stop_le_length_of_mem_tokens ht) hle,
        Token.kindAt_map_shift]
    · intro hlt
      exact Token.kindAt_append_of_lt (fun t ht => Token.le_start_of_mem_map_shift ht) hlt

/-- Lines that end behind a backslash in a string, behind a name that no backtick closes and behind
a backslash in a string between triple quotes, and a comment within a comment. -/
def danglingLines : List Char :=
  "s = \"open\\\n\x60name\n\"\"\"failed\\\n/* \" /* */ */\n".toList

/-- Nothing that follows such lines is taken for the end of what they break off. -/
theorem dangling_lines_are_read_alone :
    danglingLines.getLast? = some '\n' ∧ ¬ LeavesOpen danglingLines ∧
      tokens (danglingLines ++ "*/ \x60if \"\"\"".toList) =
        tokens danglingLines ++
          (tokens "*/ \x60if \"\"\"".toList).map (Token.shift danglingLines.length) ∧
      Token.kindAt (tokens (danglingLines ++ "*/ \x60if \"\"\"".toList))
        (danglingLines.length + 4) = .keyword := by
  have hline : danglingLines.getLast? = some '\n' := by decide
  have hclosed : ¬ LeavesOpen danglingLines := by decide +kernel
  obtain ⟨hiff, hkind⟩ := closed_text_is_read_alone hline
  have hoffset : (danglingLines.length + 4 : Int) - danglingLines.length = 4 := by omega
  refine ⟨hline, hclosed, hiff.mp hclosed _, ?_⟩
  rw [(hkind hclosed _ _).1 (by omega), hoffset]
  decide +kernel

end ParenLint.Swift
