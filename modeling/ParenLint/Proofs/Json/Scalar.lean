import Mathlib.Data.Char
import Mathlib.Tactic.IntervalCases
import Mathlib.Tactic.Lemma
import Mathlib.Tactic.SplitIfs
import ParenLint.Json.Printer
import ParenLint.Json.Reader
import ParenLint.Proofs.Text.Stretch

/-!
# JSON strings and whole numbers

A string is read back from the text that is written for it, whatever follows its closing quote. So
is a whole number, where what follows does not go on with it. Both texts are in ASCII.
-/

namespace ParenLint.Json

variable {n : Nat} {cs rest : List Char}

/-! ### UTF-16 units -/

lemma hexValue?_digitChar (h : n < 16) : hexValue? n.digitChar = some n := by
  interval_cases n <;> rfl

/-- A unit is read back from its four digits. -/
lemma unit?_hex4 (h : n < 0x10000) :
    unit? (n / 4096 % 16).digitChar (n / 256 % 16).digitChar (n / 16 % 16).digitChar
      (n % 16).digitChar = some n := by
  have hdigit : ∀ k, hexValue? (k % 16).digitChar = some (k % 16) :=
    fun k => hexValue?_digitChar (Nat.mod_lt k (by decide))
  have hvalue :
      4096 * (n / 4096 % 16) + 256 * (n / 256 % 16) + 16 * (n / 16 % 16) + n % 16 = n := by
    omega
  simp only [unit?, hdigit, Option.bind_eq_bind, Option.bind_some, Option.pure_def, hvalue]

lemma charOf?_toNat (c : Char) : charOf? c.toNat = some c := by
  have hvalid : c.toNat.isValidChar := c.valid
  rw [charOf?, if_pos hvalid, Char.ofNat_toNat]

/-! ### Strings -/

section

attribute [local simp] stringRest?

/-- The reader goes on with the character that a unit outside of pairs stands for. -/
lemma stringRest?_escapeUnit {c : Char} (h : c.toNat < 0x10000) (rest : List Char) :
    stringRest? (escapeUnit c.toNat ++ rest) = (stringRest? rest).map fun p => (c :: p.1, p.2) := by
  have hsingle : ¬ (0xD800 ≤ c.toNat ∧ c.toNat < 0xDC00) := by
    have hvalid : c.toNat.isValidChar := c.valid
    rw [Nat.isValidChar] at hvalid
    omega
  simp only [escapeUnit, hex4, List.map_cons, List.map_nil, List.cons_append, List.nil_append]
  rw [stringRest?]
  simp only [unit?_hex4 h, if_neg hsingle, charOf?_toNat, Option.bind_eq_bind, Option.bind_some]
  cases stringRest? rest <;> rfl

/-- The reader puts the two units of a pair together. -/
lemma stringRest?_pair {c : Char} {high low : Nat} (hhigh : 0xD800 ≤ high ∧ high < 0xDC00)
    (hlow : 0xDC00 ≤ low ∧ low < 0xE000)
    (hcode : 0x10000 + (high - 0xD800) * 0x400 + (low - 0xDC00) = c.toNat) (rest : List Char) :
    stringRest? (escapeUnit high ++ (escapeUnit low ++ rest)) =
      (stringRest? rest).map fun p => (c :: p.1, p.2) := by
  have hhighUnit := unit?_hex4 (n := high) (by omega)
  have hlowUnit := unit?_hex4 (n := low) (by omega)
  simp only [escapeUnit, hex4, List.map_cons, List.map_nil, List.cons_append, List.nil_append]
  rw [stringRest?]
  simp only [hhighUnit, hlowUnit, if_pos hhigh, if_pos hlow, hcode, charOf?_toNat,
    Option.bind_eq_bind, Option.bind_some]
  cases stringRest? rest <;> rfl

/-- A code point beyond the first plane is put together from its two units. -/
lemma stringRest?_beyondPlane {c : Char} (h : 0x10000 ≤ c.toNat) (rest : List Char) :
    stringRest? (escapeUnit (0xD800 + (c.toNat - 0x10000) / 0x400) ++
        (escapeUnit (0xDC00 + (c.toNat - 0x10000) % 0x400) ++ rest)) =
      (stringRest? rest).map fun p => (c :: p.1, p.2) := by
  have hlt : c.toNat < 0x110000 := by
    have hvalid : c.toNat.isValidChar := c.valid
    rw [Nat.isValidChar] at hvalid
    omega
  refine stringRest?_pair ?_ ?_ ?_ rest <;> omega

/-- The reader goes on with the character that a one-letter escape stands for. -/
lemma stringRest?_simpleEscape {c x : Char} (h : simpleEscape? c = some x) (rest : List Char) :
    stringRest? ('\\' :: c :: rest) = (stringRest? rest).map fun p => (x :: p.1, p.2) := by
  have hc : c ≠ 'u' := by
    rintro rfl
    cases h
  rw [stringRest?]
  · simp only [h, Option.bind_eq_bind, Option.bind_some]
    cases stringRest? rest <;> rfl
  · rintro a b c d rest rfl
    exact absurd rfl hc

lemma stringRest?_plain {c : Char} (hquote : c ≠ '"') (hslash : c ≠ '\\') (h : ' ' ≤ c)
    (rest : List Char) :
    stringRest? (c :: rest) = (stringRest? rest).map fun p => (c :: p.1, p.2) := by
  rw [stringRest?]
  · rw [if_neg (Char.not_lt.mpr h)]
    cases stringRest? rest <;> rfl
  all_goals
    intros
    simp_all

/-- Each character is read back from the way in which it is written. -/
lemma stringRest?_escapeChar (c : Char) (rest : List Char) :
    stringRest? (escapeChar c ++ rest) = (stringRest? rest).map fun p => (c :: p.1, p.2) := by
  rw [escapeChar]
  split_ifs with hquote hslash hline hreturn htab hback hfeed hplain
  · subst hquote
    exact stringRest?_simpleEscape rfl rest
  · subst hslash
    exact stringRest?_simpleEscape rfl rest
  · subst hline
    exact stringRest?_simpleEscape rfl rest
  · subst hreturn
    exact stringRest?_simpleEscape rfl rest
  · subst htab
    exact stringRest?_simpleEscape rfl rest
  · subst hback
    exact stringRest?_simpleEscape rfl rest
  · subst hfeed
    exact stringRest?_simpleEscape rfl rest
  · exact stringRest?_plain hquote hslash hplain.1 rest
  · rw [escapeCodePoint]
    split_ifs with hplane
    · exact stringRest?_escapeUnit hplane rest
    · rw [List.append_assoc]
      exact stringRest?_beyondPlane (Nat.not_lt.mp hplane) rest

/-- A string is read back up to its closing quote. -/
theorem stringRest?_flatMap (cs rest : List Char) :
    stringRest? (cs.flatMap escapeChar ++ '"' :: rest) = some (cs, rest) := by
  induction cs with
  | nil => simp
  | cons c cs ih => rw [List.flatMap_cons, List.append_assoc, stringRest?_escapeChar, ih]; rfl

end

/-! ### Whole numbers -/

/-- What follows does not go on with a number. -/
def EndsNumber (rest : List Char) : Prop :=
  ∀ c ∈ rest.head?, c.isDigit = false ∧ c ≠ '.' ∧ c ≠ 'e' ∧ c ≠ 'E'

lemma digitsValue_toDigits (n : Nat) : digitsValue (Nat.toDigits 10 n) = n := by
  rw [digitsValue, ← Nat.ofDigitChars_eq_foldl, Nat.ofDigitChars_ten_toDigits]

lemma isDigit_of_mem {c : Char} (h : c ∈ Nat.toDigits 10 n) : c.isDigit = true :=
  Nat.isDigit_of_mem_toDigits (by decide) (by decide) h

/-- Only zero is written with a zero in front. -/
lemma head?_toDigits (h : n ≠ 0) : (Nat.toDigits 10 n).head? ≠ some '0' := by
  induction n using Nat.strongRecOn with
  | ind n ih =>
    rw [Nat.toDigits_eq_if (by decide)]
    split_ifs with hlt
    · interval_cases n
      · exact absurd rfl h
      all_goals decide
    · have hfront := ih (n / 10) (by omega) (by omega)
      rwa [List.head?_append, Option.or_of_isSome (by simp)]

lemma whole?_toDigits (n : Nat) (h : EndsNumber rest) :
    whole? (Nat.toDigits 10 n ++ rest) = some (Nat.toDigits 10 n, rest) := by
  by_cases hn : n = 0
  · subst hn
    rfl
  · have hstop : ∀ c ∈ rest.head?, c.isDigit = false := fun c hc => (h c hc).1
    have htake : (Nat.toDigits 10 n ++ rest).takeWhile Char.isDigit = Nat.toDigits 10 n :=
      Text.takeWhile_stretch (fun c hc => isDigit_of_mem hc) hstop
    have hdrop : (Nat.toDigits 10 n ++ rest).dropWhile Char.isDigit = rest :=
      Text.dropWhile_stretch (fun c hc => isDigit_of_mem hc) hstop
    have hhead := head?_toDigits hn
    cases hdigits : Nat.toDigits 10 n with
    | nil => exact absurd hdigits Nat.toDigits_ne_nil
    | cons d ds =>
      rw [hdigits] at htake hdrop hhead
      rw [List.cons_append, whole?]
      · rw [← List.cons_append, digits?, htake, hdrop]
      · rintro tail heq
        obtain ⟨rfl, -⟩ := List.cons.inj heq
        exact hhead rfl

lemma magnitude?_toDigits (negative : Bool) (n : Nat) (h : EndsNumber rest) :
    magnitude? negative (Nat.toDigits 10 n ++ rest) =
      some (.int (if negative then -n else n), rest) := by
  have hfraction : fraction? rest = none := by
    cases rest with
    | nil => rfl
    | cons c rest =>
      rw [fraction?]
      rintro tail heq
      exact (h c rfl).2.1 (List.cons.inj heq).1
  have hscale : scale? rest = none := by
    cases rest with
    | nil => rfl
    | cons c rest => simp [scale?, (h c rfl).2.2]
  simp only [magnitude?, whole?_toDigits n h, Option.bind_eq_bind, Option.bind_some, hfraction,
    hscale, digitsValue_toDigits]
  rfl

lemma toList_toString_ofNat (n : Nat) : (toString (n : Int)).toList = Nat.toDigits 10 n :=
  Nat.toList_repr

lemma toList_toString_negSucc (n : Nat) :
    (toString (Int.negSucc n)).toList = '-' :: Nat.toDigits 10 (n + 1) := by
  change ("-" ++ Nat.repr (n + 1)).toList = _
  rw [String.toList_append, Nat.toList_repr]
  rfl

/-- A whole number is read back. -/
theorem number?_toString (n : Int) (h : EndsNumber rest) :
    number? ((toString n).toList ++ rest) = some (.int n, rest) := by
  cases n with
  | ofNat n =>
    have hread := magnitude?_toDigits false n h
    rw [Int.ofNat_eq_natCast, toList_toString_ofNat]
    cases hdigits : Nat.toDigits 10 n with
    | nil => exact absurd hdigits Nat.toDigits_ne_nil
    | cons d ds =>
      rw [hdigits] at hread
      rw [List.cons_append, number?]
      · exact hread
      · rintro tail heq
        obtain ⟨rfl, -⟩ := List.cons.inj heq
        have hdigit : '-'.isDigit = true := isDigit_of_mem (hdigits ▸ List.mem_cons_self)
        cases hdigit
  | negSucc n =>
    rw [toList_toString_negSucc, List.cons_append, number?, magnitude?_toDigits true _ h]
    rfl

/-- A whole number begins with a digit or a minus sign. -/
lemma exists_toString_eq_cons (n : Int) :
    ∃ c cs, (toString n).toList = c :: cs ∧ (c.isDigit = true ∨ c = '-') := by
  cases n with
  | ofNat n =>
    obtain ⟨d, ds, hdigits⟩ :=
      List.exists_cons_of_ne_nil (Nat.toDigits_ne_nil (b := 10) (n := n))
    refine ⟨d, ds, (toList_toString_ofNat n).trans hdigits, .inl ?_⟩
    exact isDigit_of_mem (hdigits ▸ List.mem_cons_self)
  | negSucc n => exact ⟨_, _, toList_toString_negSucc n, .inr rfl⟩

/-! ### ASCII -/

/-- All characters are in ASCII. -/
def IsAscii (cs : List Char) : Prop := ∀ c ∈ cs, c.toNat < 128

@[simp] lemma isAscii_nil : IsAscii [] := by simp [IsAscii]

@[simp] lemma isAscii_cons {c : Char} : IsAscii (c :: cs) ↔ c.toNat < 128 ∧ IsAscii cs := by
  simp [IsAscii]

@[simp] lemma isAscii_append : IsAscii (cs ++ rest) ↔ IsAscii cs ∧ IsAscii rest := by
  simp [IsAscii, or_imp, forall_and]

lemma toNat_digitChar_lt (h : n < 16) : n.digitChar.toNat < 128 := by
  interval_cases n <;> decide

lemma isAscii_escapeUnit (n : Nat) : IsAscii (escapeUnit n) := by
  have hdigit : ∀ k, (k % 16).digitChar.toNat < 128 :=
    fun k => toNat_digitChar_lt (Nat.mod_lt k (by decide))
  simp [escapeUnit, hex4, hdigit]

lemma isAscii_escapeChar (c : Char) : IsAscii (escapeChar c) := by
  rw [escapeChar]
  split_ifs with _ _ _ _ _ _ _ hplain
  · simp
  · simp
  · simp
  · simp
  · simp
  · simp
  · simp
  · have htilde : c.toNat ≤ '~'.toNat := hplain.2
    simpa using Nat.lt_of_le_of_lt htilde (by decide)
  · rw [escapeCodePoint]
    split_ifs <;> simp [isAscii_escapeUnit]

/-- The text of a string is in ASCII. -/
theorem isAscii_renderString (cs : List Char) : IsAscii (renderString cs) := by
  have hbody : IsAscii (cs.flatMap escapeChar) := by
    intro c hc
    obtain ⟨d, -, hc⟩ := List.mem_flatMap.mp hc
    exact isAscii_escapeChar d c hc
  simp [renderString, hbody]

lemma isAscii_toDigits (n : Nat) : IsAscii (Nat.toDigits 10 n) := by
  intro c hc
  have hdigit := isDigit_of_mem hc
  simp only [Char.isDigit, Bool.and_eq_true, decide_eq_true_eq] at hdigit
  have hnine : c.toNat ≤ '9'.toNat := hdigit.2
  exact Nat.lt_of_le_of_lt hnine (by decide)

/-- The text of a whole number is in ASCII. -/
theorem isAscii_toString (n : Int) : IsAscii (toString n).toList := by
  cases n with
  | ofNat n =>
    rw [Int.ofNat_eq_natCast, toList_toString_ofNat]
    exact isAscii_toDigits n
  | negSucc n =>
    rw [toList_toString_negSucc]
    simp [isAscii_toDigits]

end ParenLint.Json
