import Mathlib.Data.List.DropRight
import ParenLint.Proofs.Json.Scalar

/-!
# Reading back the JSON that is written

A value without floating-point numbers is read back from its text, however the text is spread over
lines. The text of such a value is in ASCII.
-/

namespace ParenLint.Json

variable {l : Layout} {depth fuel : Nat} {k : String} {x : Json} {xs : List Json}
  {m : String × Json} {ms : List (String × Json)} {cs blanks mid rest : List Char}

mutual

/-- No floating-point number occurs in the value. -/
def IsExact : Json → Prop
  | float _ => False
  | array xs => AreExact xs
  | object ms => HasExactMembers ms
  | _ => True

/-- No floating-point number occurs in the values. -/
def AreExact : List Json → Prop
  | [] => True
  | x :: xs => x.IsExact ∧ AreExact xs

/-- No floating-point number occurs in the members. -/
def HasExactMembers : List (String × Json) → Prop
  | [] => True
  | (_, x) :: ms => x.IsExact ∧ HasExactMembers ms

end

/-! ### Blanks -/

/-- JSON's four blank characters. -/
def IsBlank (c : Char) : Prop := c = ' ' ∨ c = '\n' ∨ c = '\r' ∨ c = '\t'

/-- Items are separated by one comma and blanks. -/
def Layout.IsReadable (l : Layout) : Prop :=
  ∃ blanks, l.itemSeparator = ',' :: blanks ∧ ∀ c ∈ blanks, IsBlank c

lemma Layout.isReadable_indented : Layout.indented.IsReadable := ⟨[], rfl, by simp⟩

lemma isBlank_of_mem_gap {c : Char} (h : c ∈ l.gap depth) : IsBlank c := by
  rw [Layout.gap] at h
  cases hindent : l.indent with
  | none => simp [hindent] at h
  | some k =>
    simp only [hindent, List.mem_cons, List.mem_replicate] at h
    rcases h with rfl | ⟨-, rfl⟩
    · exact .inr (.inl rfl)
    · exact .inl rfl

@[simp] lemma skipBlanks_cons {c : Char} (h : ¬ IsBlank c) : skipBlanks (c :: cs) = c :: cs := by
  rw [skipBlanks, List.dropWhile_cons_of_neg]
  simpa [IsBlank] using h

lemma skipBlanks_append (h : ∀ c ∈ blanks, IsBlank c) :
    skipBlanks (blanks ++ rest) = skipBlanks rest :=
  List.dropWhile_append_of_pos fun c hc => by simpa [IsBlank] using h c hc

lemma skipBlanks_skipBlanks : skipBlanks (skipBlanks cs) = skipBlanks cs :=
  List.dropWhile_idempotent _ cs

/-- A value is read after the blanks in front of it. -/
lemma value?_skipBlanks : value? fuel (skipBlanks cs) = value? fuel cs := by
  rw [value?.eq_def, value?.eq_def, skipBlanks_skipBlanks]

lemma field?_skipBlanks : field? fuel (skipBlanks cs) = field? fuel cs := by
  rw [field?.eq_def, field?.eq_def, skipBlanks_skipBlanks]

lemma value?_blanks (h : ∀ c ∈ blanks, IsBlank c) :
    value? fuel (blanks ++ rest) = value? fuel rest := by
  rw [← value?_skipBlanks, skipBlanks_append h, value?_skipBlanks]

lemma items?_blanks (h : ∀ c ∈ blanks, IsBlank c) :
    items? fuel (blanks ++ rest) = items? fuel rest := by
  rw [items?.eq_def, items?.eq_def, skipBlanks_append h]

lemma field?_blanks (h : ∀ c ∈ blanks, IsBlank c) :
    field? fuel (blanks ++ rest) = field? fuel rest := by
  rw [← field?_skipBlanks, skipBlanks_append h, field?_skipBlanks]

lemma fields?_blanks (h : ∀ c ∈ blanks, IsBlank c) :
    fields? fuel (blanks ++ rest) = fields? fuel rest := by
  rw [fields?.eq_def, fields?.eq_def, skipBlanks_append h]

/-! ### One step of each reader -/

section

attribute [local simp] value? items? field? fields?

lemma value?_null : value? (fuel + 1) ('n' :: 'u' :: 'l' :: 'l' :: rest) = some (.null, rest) := by
  simp [skipBlanks]

lemma value?_true :
    value? (fuel + 1) ('t' :: 'r' :: 'u' :: 'e' :: rest) = some (.bool true, rest) := by
  simp [skipBlanks]

lemma value?_false :
    value? (fuel + 1) ('f' :: 'a' :: 'l' :: 's' :: 'e' :: rest) = some (.bool false, rest) := by
  simp [skipBlanks]

lemma value?_string :
    value? (fuel + 1) (renderString k.toList ++ rest) = some (.string k, rest) := by
  simp [skipBlanks, renderString, stringRest?_flatMap]

lemma value?_int {n : Int} (h : EndsNumber rest) :
    value? (fuel + 1) ((toString n).toList ++ rest) = some (.int n, rest) := by
  have hread := number?_toString n h
  obtain ⟨c, cs, hcons, hc⟩ := exists_toString_eq_cons n
  rw [hcons, List.cons_append] at hread ⊢
  have hblank : ¬ IsBlank c := by
    rintro (rfl | rfl | rfl | rfl) <;> simp at hc
  rw [value?.eq_def, skipBlanks_cons hblank]
  split <;> simp_all

lemma value?_closeBracket : value? fuel (']' :: rest) = none := by
  cases fuel <;> simp [skipBlanks, number?, magnitude?, whole?, digits?]

lemma field?_closeBrace : field? fuel ('}' :: rest) = none := by
  cases fuel <;> simp [skipBlanks]

lemma value?_array_nil : value? (fuel + 1) ('[' :: ']' :: rest) = some (.array [], rest) := by
  simp [skipBlanks]

/-- An array is read as its first item and the items after it. -/
lemma value?_array_cons (hx : value? fuel cs = some (x, mid))
    (hxs : items? fuel mid = some (xs, rest)) :
    value? (fuel + 1) ('[' :: cs) = some (.array (x :: xs), rest) := by
  have hopen : ∀ tail, skipBlanks cs ≠ ']' :: tail := by
    intro tail heq
    rw [← value?_skipBlanks, heq, value?_closeBracket] at hx
    cases hx
  rw [value?.eq_def, skipBlanks_cons (by simp [IsBlank])]
  split <;> simp_all [value?_skipBlanks]

lemma value?_object_nil : value? (fuel + 1) ('{' :: '}' :: rest) = some (.object [], rest) := by
  simp [skipBlanks]

/-- An object is read as its first member and the members after it. -/
lemma value?_object_cons (hm : field? fuel cs = some (m, mid))
    (hms : fields? fuel mid = some (ms, rest)) :
    value? (fuel + 1) ('{' :: cs) = some (.object (m :: ms), rest) := by
  have hopen : ∀ tail, skipBlanks cs ≠ '}' :: tail := by
    intro tail heq
    rw [← field?_skipBlanks, heq, field?_closeBrace] at hm
    cases hm
  rw [value?.eq_def, skipBlanks_cons (by simp [IsBlank])]
  split <;> simp_all [field?_skipBlanks]

lemma items?_nil : items? (fuel + 1) (']' :: rest) = some ([], rest) := by
  simp [skipBlanks]

lemma items?_cons (hx : value? fuel cs = some (x, mid)) (hxs : items? fuel mid = some (xs, rest)) :
    items? (fuel + 1) (',' :: cs) = some (x :: xs, rest) := by
  simp [skipBlanks, hx, hxs]

lemma field?_member (hx : value? fuel cs = some (x, rest)) :
    field? (fuel + 1) (renderString k.toList ++ ':' :: ' ' :: cs) = some ((k, x), rest) := by
  have hspace : value? fuel (' ' :: cs) = some (x, rest) := by
    rw [← List.singleton_append, value?_blanks (by simp [IsBlank]), hx]
  simp [skipBlanks, renderString, stringRest?_flatMap, hspace]

lemma fields?_nil : fields? (fuel + 1) ('}' :: rest) = some ([], rest) := by
  simp [skipBlanks]

lemma fields?_cons (hm : field? fuel cs = some (m, mid))
    (hms : fields? fuel mid = some (ms, rest)) :
    fields? (fuel + 1) (',' :: cs) = some (m :: ms, rest) := by
  simp [skipBlanks, hm, hms]

end

/-! ### Whole texts -/

lemma endsNumber_cons {c : Char} (h : IsBlank c ∨ c = ',' ∨ c = ']' ∨ c = '}') :
    EndsNumber (c :: cs) := by
  rintro d hd
  obtain rfl : c = d := by simpa using hd
  rcases h with (rfl | rfl | rfl | rfl) | rfl | rfl | rfl <;> decide

lemma endsNumber_blanks (h : ∀ c ∈ blanks, IsBlank c) (hrest : EndsNumber rest) :
    EndsNumber (blanks ++ rest) := by
  cases blanks with
  | nil => exact hrest
  | cons c cs => exact endsNumber_cons (.inl (h c List.mem_cons_self))

lemma endsNumber_renderItems (hl : l.IsReadable) (depth : Nat) (xs : List Json)
    (h : EndsNumber rest) :
    EndsNumber (renderItems l depth xs ++ rest) := by
  obtain ⟨blanks, hsep, -⟩ := hl
  cases xs with
  | nil => rwa [renderItems, List.nil_append]
  | cons x xs =>
    simp only [renderItems, hsep, List.cons_append]
    exact endsNumber_cons (.inr (.inl rfl))

lemma endsNumber_renderMembers (hl : l.IsReadable) (depth : Nat) (ms : List (String × Json))
    (h : EndsNumber rest) :
    EndsNumber (renderMembers l depth ms ++ rest) := by
  obtain ⟨blanks, hsep, -⟩ := hl
  cases ms with
  | nil => rwa [renderMembers, List.nil_append]
  | cons m ms =>
    obtain ⟨k, x⟩ := m
    simp only [renderMembers, hsep, List.cons_append]
    exact endsNumber_cons (.inr (.inl rfl))

mutual

/-- A value is read back from its text, if the fuel exceeds the length of the text. -/
theorem value?_renderAt (hl : l.IsReadable) (depth fuel : Nat) (x : Json) (hx : x.IsExact)
    (rest : List Char) (hrest : EndsNumber rest) (hfuel : (renderAt l depth x).length < fuel) :
    value? fuel (renderAt l depth x ++ rest) = some (x, rest) := by
  -- A reader spends one unit of fuel where it enters a bracket or passes a comma, and the character
  -- that it reads there pays for it.
  obtain ⟨fuel, rfl⟩ := Nat.exists_eq_add_one_of_ne_zero (Nat.ne_zero_of_lt hfuel)
  match x with
  | .null => exact value?_null
  | .bool true => exact value?_true
  | .bool false => exact value?_false
  | .int n => exact value?_int hrest
  | .float y => exact absurd hx (by simp [IsExact])
  | .string s => exact value?_string
  | .array [] => exact value?_array_nil
  | .array (x :: xs) =>
    obtain ⟨hx, hxs⟩ := hx
    have hgap : ∀ d, ∀ c ∈ l.gap d, IsBlank c := fun d c hc => isBlank_of_mem_gap hc
    simp only [renderAt, List.cons_append, List.append_assoc, List.nil_append, List.length_cons,
      List.length_append, List.length_nil] at hfuel ⊢
    have hclose : EndsNumber (l.gap depth ++ ']' :: rest) :=
      endsNumber_blanks (hgap depth) (endsNumber_cons (.inr (.inr (.inl rfl))))
    have hfirst := value?_renderAt hl (depth + 1) fuel x hx _
      (endsNumber_renderItems hl (depth + 1) xs hclose) (by omega)
    have hitems := items?_renderItems hl (depth + 1) fuel xs hxs _ (hgap depth) rest (by omega)
    exact value?_array_cons ((value?_blanks (hgap (depth + 1))).trans hfirst) hitems
  | .object [] => exact value?_object_nil
  | .object ((k, x) :: ms) =>
    obtain ⟨hx, hms⟩ := hx
    have hgap : ∀ d, ∀ c ∈ l.gap d, IsBlank c := fun d c hc => isBlank_of_mem_gap hc
    simp only [renderAt, List.cons_append, List.append_assoc, List.nil_append, List.length_cons,
      List.length_append, List.length_nil] at hfuel ⊢
    have hclose : EndsNumber (l.gap depth ++ '}' :: rest) :=
      endsNumber_blanks (hgap depth) (endsNumber_cons (.inr (.inr (.inr rfl))))
    obtain ⟨fuel, rfl⟩ : ∃ k, fuel = k + 1 := ⟨fuel - 1, by omega⟩
    have hfirst := value?_renderAt hl (depth + 1) fuel x hx _
      (endsNumber_renderMembers hl (depth + 1) ms hclose) (by omega)
    have hmembers := fields?_renderMembers hl (depth + 1) (fuel + 1) ms hms _ (hgap depth) rest
      (by omega)
    exact value?_object_cons ((field?_blanks (hgap (depth + 1))).trans (field?_member hfirst))
      hmembers

/-- Items are read back up to the closing bracket, which may follow blanks. -/
theorem items?_renderItems (hl : l.IsReadable) (depth fuel : Nat) (xs : List Json)
    (hxs : AreExact xs) (blanks : List Char) (hblanks : ∀ c ∈ blanks, IsBlank c)
    (rest : List Char) (hfuel : (renderItems l depth xs).length < fuel) :
    items? fuel (renderItems l depth xs ++ (blanks ++ ']' :: rest)) = some (xs, rest) := by
  obtain ⟨fuel, rfl⟩ := Nat.exists_eq_add_one_of_ne_zero (Nat.ne_zero_of_lt hfuel)
  match xs with
  | [] => rw [renderItems, List.nil_append, items?_blanks hblanks, items?_nil]
  | x :: xs =>
    obtain ⟨hx, hxs⟩ := hxs
    obtain ⟨between, hsep, hbetween⟩ := id hl
    simp only [renderItems, hsep, List.cons_append, List.append_assoc, List.length_cons,
      List.length_append] at hfuel ⊢
    have hclose : EndsNumber (blanks ++ ']' :: rest) :=
      endsNumber_blanks hblanks (endsNumber_cons (.inr (.inr (.inl rfl))))
    have hfirst := value?_renderAt hl depth fuel x hx _ (endsNumber_renderItems hl depth xs hclose)
      (by omega)
    have hitems := items?_renderItems hl depth fuel xs hxs _ hblanks rest (by omega)
    refine items?_cons ?_ hitems
    rw [value?_blanks hbetween, value?_blanks fun c hc => isBlank_of_mem_gap hc, hfirst]

/-- Members are read back up to the closing brace, which may follow blanks. -/
theorem fields?_renderMembers (hl : l.IsReadable) (depth fuel : Nat) (ms : List (String × Json))
    (hms : HasExactMembers ms) (blanks : List Char) (hblanks : ∀ c ∈ blanks, IsBlank c)
    (rest : List Char) (hfuel : (renderMembers l depth ms).length < fuel) :
    fields? fuel (renderMembers l depth ms ++ (blanks ++ '}' :: rest)) = some (ms, rest) := by
  obtain ⟨fuel, rfl⟩ := Nat.exists_eq_add_one_of_ne_zero (Nat.ne_zero_of_lt hfuel)
  match ms with
  | [] => rw [renderMembers, List.nil_append, fields?_blanks hblanks, fields?_nil]
  | (k, x) :: ms =>
    obtain ⟨hx, hms⟩ := hms
    obtain ⟨between, hsep, hbetween⟩ := id hl
    simp only [renderMembers, hsep, List.cons_append, List.append_assoc, List.length_cons,
      List.length_append, List.nil_append] at hfuel ⊢
    have hclose : EndsNumber (blanks ++ '}' :: rest) :=
      endsNumber_blanks hblanks (endsNumber_cons (.inr (.inr (.inr rfl))))
    obtain ⟨fuel, rfl⟩ : ∃ k, fuel = k + 1 := ⟨fuel - 1, by omega⟩
    have hfirst := value?_renderAt hl depth fuel x hx _
      (endsNumber_renderMembers hl depth ms hclose) (by omega)
    have hmembers := fields?_renderMembers hl depth (fuel + 1) ms hms _ hblanks rest (by omega)
    refine fields?_cons ?_ hmembers
    rw [field?_blanks hbetween, field?_blanks fun c hc => isBlank_of_mem_gap hc,
      field?_member hfirst]

end

/-- A value without floating-point numbers is read back from its text. -/
theorem parse?_render (hl : l.IsReadable) (hx : x.IsExact) : parse? (render l x) = some x := by
  have hread := value?_renderAt hl 0 ((renderAt l 0 x).length + 1) x hx [] (by simp [EndsNumber])
    (Nat.lt_succ_self _)
  rw [List.append_nil] at hread
  simp only [parse?, render, hread]
  rfl

/-! ### ASCII -/

lemma isAscii_of_forall_isBlank (h : ∀ c ∈ blanks, IsBlank c) : IsAscii blanks := by
  intro c hc
  rcases h c hc with rfl | rfl | rfl | rfl <;> decide

lemma isAscii_gap : IsAscii (l.gap depth) :=
  isAscii_of_forall_isBlank fun _ hc => isBlank_of_mem_gap hc

lemma Layout.IsReadable.isAscii (hl : l.IsReadable) : IsAscii l.itemSeparator := by
  obtain ⟨blanks, hsep, hblanks⟩ := hl
  simp [hsep, isAscii_of_forall_isBlank hblanks]

mutual

/-- The text of a value is in ASCII. -/
theorem isAscii_renderAt (hl : l.IsReadable) (depth : Nat) (x : Json) (hx : x.IsExact) :
    IsAscii (renderAt l depth x) := by
  match x with
  | .null => simp [renderAt]
  | .bool true => simp [renderAt]
  | .bool false => simp [renderAt]
  | .int n => exact isAscii_toString n
  | .float y => exact absurd hx (by simp [IsExact])
  | .string s => exact isAscii_renderString s.toList
  | .array [] => simp [renderAt]
  | .array (x :: xs) =>
    have hfirst := isAscii_renderAt hl (depth + 1) x hx.1
    have hitems := isAscii_renderItems hl (depth + 1) xs hx.2
    simp [renderAt, isAscii_gap, hfirst, hitems]
  | .object [] => simp [renderAt]
  | .object ((k, x) :: ms) =>
    have hfirst := isAscii_renderAt hl (depth + 1) x hx.1
    have hmembers := isAscii_renderMembers hl (depth + 1) ms hx.2
    simp [renderAt, isAscii_gap, isAscii_renderString, hfirst, hmembers]

theorem isAscii_renderItems (hl : l.IsReadable) (depth : Nat) (xs : List Json)
    (hxs : AreExact xs) : IsAscii (renderItems l depth xs) := by
  match xs with
  | [] => simp [renderItems]
  | x :: xs =>
    have hfirst := isAscii_renderAt hl depth x hxs.1
    have hitems := isAscii_renderItems hl depth xs hxs.2
    simp [renderItems, hl.isAscii, isAscii_gap, hfirst, hitems]

theorem isAscii_renderMembers (hl : l.IsReadable) (depth : Nat) (ms : List (String × Json))
    (hms : HasExactMembers ms) : IsAscii (renderMembers l depth ms) := by
  match ms with
  | [] => simp [renderMembers]
  | (k, x) :: ms =>
    have hfirst := isAscii_renderAt hl depth x hms.1
    have hmembers := isAscii_renderMembers hl depth ms hms.2
    simp [renderMembers, hl.isAscii, isAscii_gap, isAscii_renderString, hfirst, hmembers]

end

end ParenLint.Json
