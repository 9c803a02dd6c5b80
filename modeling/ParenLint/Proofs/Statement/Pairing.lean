import ParenLint.Proofs.Statement.Nesting

/-!
# Pairing parentheses

Over a whole text, from left to right, each closing parenthesis is paired with the innermost one
that is still open; one that finds none open has no partner. Between two partners the text is
balanced, and a parenthesis stays open over any stretch that stays above depth zero.
-/

namespace ParenLint

/-- The offsets of the parentheses that are open behind a text, the innermost first. `opened` are
those that are open before it, and `offset` is where it begins. -/
def openedBehind (opened : List Nat) (offset : Nat) : List Char → List Nat
  | [] => opened
  | c :: rest =>
    if c = '(' then openedBehind (offset :: opened) (offset + 1) rest
    else if c = ')' then openedBehind opened.tail (offset + 1) rest
    else openedBehind opened (offset + 1) rest

/-- The pairs of offsets of an opening parenthesis and the closing one in a text that belongs to
it. -/
def parenPairs (opened : List Nat) (offset : Nat) : List Char → List (Nat × Nat)
  | [] => []
  | c :: rest =>
    if c = '(' then parenPairs (offset :: opened) (offset + 1) rest
    else if c = ')' then
      (opened.head?.map (·, offset)).toList ++ parenPairs opened.tail (offset + 1) rest
    else parenPairs opened (offset + 1) rest

/-- Whether the parentheses at two offsets of a text belong together. -/
def Partners (contents : List Char) (i j : Nat) : Prop := (i, j) ∈ parenPairs [] 0 contents

instance (contents : List Char) (i j : Nat) : Decidable (Partners contents i j) :=
  inferInstanceAs (Decidable (_ ∈ _))

example : Partners "f(a(b)".toList 3 5 ∧ ¬ Partners "f(a(b)".toList 1 5 := by decide

/-! ### Pairing piece by piece -/

lemma openedBehind_append (opened : List Nat) (offset : Nat) (a b : List Char) :
    openedBehind opened offset (a ++ b) =
      openedBehind (openedBehind opened offset a) (offset + a.length) b := by
  induction a generalizing opened offset with
  | nil => rfl
  | cons c a ih =>
    have hlength : offset + 1 + a.length = offset + (c :: a).length := by
      rw [List.length_cons, Nat.add_assoc, Nat.add_comm 1]
    simp only [List.cons_append, openedBehind, ih, hlength]
    split_ifs <;> rfl

lemma parenPairs_append (opened : List Nat) (offset : Nat) (a b : List Char) :
    parenPairs opened offset (a ++ b) = parenPairs opened offset a ++
      parenPairs (openedBehind opened offset a) (offset + a.length) b := by
  induction a generalizing opened offset with
  | nil => rfl
  | cons c a ih =>
    have hlength : offset + 1 + a.length = offset + (c :: a).length := by
      simp only [List.length_cons]
      omega
    simp only [List.cons_append, parenPairs, openedBehind, ih, hlength]
    split_ifs <;> simp

/-- The closing parenthesis of a pair lies in the text, and the opening one was open before or
stands before it. -/
lemma bounds_of_mem_parenPairs {opened : List Nat} {offset i j : Nat} {text : List Char}
    (h : (i, j) ∈ parenPairs opened offset text) :
    offset ≤ j ∧ j < offset + text.length ∧ (i ∈ opened ∨ i < j) := by
  induction text generalizing opened offset with
  | nil => simp [parenPairs] at h
  | cons c text ih =>
    rw [parenPairs] at h
    rw [List.length_cons]
    split_ifs at h
    · obtain ⟨hle, hlt, hfst⟩ := ih h
      refine ⟨by omega, by omega, ?_⟩
      obtain hfst | hfst := hfst
      · obtain rfl | hfst := List.mem_cons.mp hfst
        · exact .inr (by omega)
        · exact .inl hfst
      · exact .inr hfst
    · obtain h | h := List.mem_append.mp h
      · obtain ⟨hhead, rfl⟩ : opened.head? = some i ∧ offset = j := by simpa using h
        exact ⟨Nat.le_refl _, by omega, .inl (List.mem_of_mem_head? hhead)⟩
      · obtain ⟨hle, hlt, hfst⟩ := ih h
        exact ⟨by omega, by omega, hfst.imp_left List.mem_of_mem_tail⟩
    · obtain ⟨hle, hlt, hfst⟩ := ih h
      exact ⟨by omega, by omega, hfst⟩

/-! ### Parentheses that stay open -/

section StaysOpen

variable {text : List Char} {bound : Nat} (inner opened : List Nat) (offset : Nat)

/-- A text that stays above the depth of the parentheses `inner` closes none of those outside. -/
lemma openedBehind_of_staysAbove (h : StaysAbove inner.length text) (hoffset : bound ≤ offset)
    (hinner : ∀ i ∈ inner, bound ≤ i) :
    ∃ inner', openedBehind (inner ++ opened) offset text = inner' ++ opened ∧
      inner'.length + text.count ')' = inner.length + text.count '(' ∧
      ∀ i ∈ inner', bound ≤ i := by
  induction text generalizing inner offset with
  | nil => exact ⟨inner, rfl, by simp, hinner⟩
  | cons c text ih =>
    rw [openedBehind]
    split_ifs with hopen hclose
    · subst hopen
      obtain ⟨inner', hbehind, hcount, hinner'⟩ := ih (offset :: inner) (offset + 1)
        (StaysAbove.openParen_iff.mp h) (by omega) (by simpa [hoffset] using hinner)
      refine ⟨inner', hbehind, ?_, hinner'⟩
      rw [List.length_cons] at hcount
      simp only [List.count_cons_self, List.count_cons_of_ne (by decide : '(' ≠ ')'), hcount]
      omega
    · subst hclose
      cases inner with
      | nil => exact absurd h StaysAbove.not_closeParen
      | cons i inner =>
        obtain ⟨inner', hbehind, hcount, hinner'⟩ := ih inner (offset + 1)
          (StaysAbove.closeParen_iff.mp h) (by omega) (fun j hj => hinner j (by simp [hj]))
        refine ⟨inner', hbehind, ?_, hinner'⟩
        rw [List.length_cons]
        simp only [List.count_cons_self, List.count_cons_of_ne (by decide : ')' ≠ '(')]
        omega
    · obtain ⟨inner', hbehind, hcount, hinner'⟩ := ih inner (offset + 1)
        ((StaysAbove.other_iff hopen hclose).mp h) (by omega) hinner
      exact ⟨inner', hbehind, by simpa [hopen, hclose] using hcount, hinner'⟩

/-- Nor does it pair any of those outside. -/
lemma le_fst_of_mem_parenPairs (h : StaysAbove inner.length text) (hoffset : bound ≤ offset)
    (hinner : ∀ i ∈ inner, bound ≤ i) {i j : Nat}
    (hij : (i, j) ∈ parenPairs (inner ++ opened) offset text) : bound ≤ i := by
  induction text generalizing inner offset with
  | nil => simp [parenPairs] at hij
  | cons c text ih =>
    rw [parenPairs] at hij
    split_ifs at hij with hopen hclose
    · subst hopen
      exact ih (offset :: inner) (offset + 1) (StaysAbove.openParen_iff.mp h) (by omega)
        (by simpa [hoffset] using hinner) hij
    · subst hclose
      cases inner with
      | nil => exact absurd h StaysAbove.not_closeParen
      | cons k inner =>
        obtain hij | hij := List.mem_append.mp hij
        · obtain ⟨rfl, -⟩ : i = k ∧ j = offset := by simpa using hij
          exact hinner i List.mem_cons_self
        · exact ih inner (offset + 1) (StaysAbove.closeParen_iff.mp h) (by omega)
            (fun j hj => hinner j (by simp [hj])) hij
    · exact ih inner (offset + 1) ((StaysAbove.other_iff hopen hclose).mp h) (by omega) hinner hij

end StaysOpen

section Opened

variable {opened : List Nat} {offset i : Nat} {text : List Char}

/-- A parenthesis that is open behind a text was open before it or stands in it. -/
lemma bounds_of_mem_openedBehind (h : i ∈ openedBehind opened offset text) :
    i ∈ opened ∨ offset ≤ i ∧ i < offset + text.length := by
  induction text generalizing opened offset with
  | nil => exact .inl h
  | cons c text ih =>
    rw [openedBehind] at h
    have hinside : offset + 1 ≤ i ∧ i < offset + 1 + text.length →
        offset ≤ i ∧ i < offset + (c :: text).length := by
      rw [List.length_cons]
      omega
    split_ifs at h
    · obtain h | h := ih h
      · obtain rfl | h := List.mem_cons.mp h
        · exact .inr ⟨Nat.le_refl i, by simp⟩
        · exact .inl h
      · exact .inr (hinside h)
    · exact (ih h).imp List.mem_of_mem_tail hinside
    · exact (ih h).imp_right hinside

/-- Inside the parentheses `inner`, the one around them stays open over a text exactly if the text
stays above their depth. -/
theorem mem_openedBehind_iff_staysAbove (inner : List Nat) (hlt : i < offset) (hi : i ∉ opened) :
    i ∈ openedBehind (inner ++ i :: opened) offset text ↔ StaysAbove inner.length text := by
  -- What the text opens joins `inner`, so the length of `inner` is the depth.
  induction text generalizing inner offset with
  | nil => simp [openedBehind]
  | cons c text ih =>
    have hlt' : i < offset + 1 := Nat.lt_succ_of_lt hlt
    rw [openedBehind]
    split_ifs with hopen hclose
    · subst hopen
      rw [← List.cons_append, ih _ hlt', StaysAbove.openParen_iff]
      rfl
    · subst hclose
      cases inner with
      | nil =>
        -- The parenthesis itself is closed, and what is opened behind it has another offset.
        have hgone : i ∉ openedBehind opened (offset + 1) text := by
          intro h
          obtain h | ⟨hle, -⟩ := bounds_of_mem_openedBehind h
          · exact hi h
          · exact Nat.not_le_of_lt hlt' hle
        simpa using hgone
      | cons k inner =>
        rw [List.cons_append, List.tail_cons, ih _ hlt', List.length_cons, StaysAbove.closeParen_iff]
    · rw [ih _ hlt', StaysAbove.other_iff hopen hclose]

/-- A parenthesis is still open behind a text that follows it exactly if the text does not close
it. -/
lemma mem_openedBehind_openParen_iff {before body : List Char} :
    before.length ∈ openedBehind [] 0 (before ++ '(' :: body) ↔ StaysAbove 0 body := by
  have hbefore : before.length ∉ openedBehind [] 0 before := by
    intro h
    simpa using bounds_of_mem_openedBehind h
  rw [openedBehind_append, Nat.zero_add, openedBehind, if_pos rfl]
  exact mem_openedBehind_iff_staysAbove [] (Nat.lt_succ_self _) hbefore

/-- A closing parenthesis is the partner of the innermost one that is open where it stands. -/
theorem partners_iff_head? {front after : List Char} :
    Partners (front ++ ')' :: after) i front.length ↔
      (openedBehind [] 0 front).head? = some i := by
  rw [Partners, parenPairs_append, Nat.zero_add, parenPairs, if_neg (by decide), if_pos rfl,
    List.mem_append, List.mem_append]
  constructor
  · rintro (h | h | h)
    · obtain ⟨-, hlt, -⟩ := bounds_of_mem_parenPairs h
      omega
    · simpa using h
    · obtain ⟨hle, -⟩ := bounds_of_mem_parenPairs h
      omega
  · intro h
    exact .inr (.inl (by simp [h]))

end Opened

/-! ### Two parentheses around a text -/

section Around

variable {before body : List Char}

/-- A parenthesis that stays open over a text has no partner in it. -/
lemma not_partners_of_staysAbove (h : StaysAbove 0 body) (after : List Char) {j : Nat}
    (hj : j < (before ++ '(' :: body).length) :
    ¬ Partners (before ++ '(' :: body ++ after) before.length j := by
  rw [Partners, parenPairs_append, parenPairs_append, Nat.zero_add, parenPairs, if_pos rfl,
    List.mem_append, List.mem_append]
  rintro ((hpair | hpair) | hpair)
  · obtain ⟨-, hlt, hfst⟩ := bounds_of_mem_parenPairs hpair
    simp at hfst
    omega
  · have hle := le_fst_of_mem_parenPairs [] _ _ h (Nat.le_refl _) (by simp) hpair
    omega
  · obtain ⟨hle, -⟩ := bounds_of_mem_parenPairs hpair
    omega

/-- A parenthesis that stays open over a text is the innermost open one behind it exactly if the
text is balanced. -/
lemma head?_openedBehind_iff_balanced (h : StaysAbove 0 body) :
    (openedBehind [] 0 (before ++ '(' :: body)).head? = some before.length ↔ Balanced body := by
  obtain ⟨inner, hbehind, hcount, hinner⟩ := openedBehind_of_staysAbove []
    (before.length :: openedBehind [] 0 before) (before.length + 1) h (Nat.le_refl _) (by simp)
  have hbalanced : Balanced body ↔ inner = [] := by
    rw [balanced_iff, and_iff_right h, ← List.length_eq_zero_iff]
    rw [List.length_nil] at hcount
    omega
  rw [List.nil_append] at hbehind
  rw [openedBehind_append, Nat.zero_add, openedBehind, if_pos rfl, hbehind, hbalanced]
  cases inner with
  | nil => simp
  | cons i inner =>
    have hle := hinner i List.mem_cons_self
    simp only [List.cons_append, List.head?_cons, Option.some.injEq, reduceCtorEq, iff_false]
    omega

/-- The parentheses around a text that stays above depth zero are partners exactly when the text is
balanced, and the first has no partner before the second. -/
theorem partners_iff_balanced {after : List Char} (h : StaysAbove 0 body) {j : Nat}
    (hj : j ≤ before.length + 1 + body.length) :
    Partners (before ++ '(' :: body ++ ')' :: after) before.length j ↔
      j = before.length + 1 + body.length ∧ Balanced body := by
  have hlast : before.length + 1 + body.length = (before ++ '(' :: body).length := by
    rw [List.length_append, List.length_cons, Nat.add_assoc, Nat.add_comm 1]
  rw [hlast] at hj ⊢
  obtain hlt | rfl := Nat.lt_or_eq_of_le hj
  · exact iff_of_false (not_partners_of_staysAbove h _ hlt) fun hand => Nat.ne_of_lt hlt hand.1
  · rw [partners_iff_head?, head?_openedBehind_iff_balanced h, and_iff_right rfl]

end Around

end ParenLint
