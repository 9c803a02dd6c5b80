import ParenLint.Proofs.Swift.Classification
import ParenLint.Proofs.Swift.Element

/-!
# Elements written and read back

Elements that are written one after the other, with blanks or punctuation between them, are the
tokens of the text.
-/

namespace ParenLint.Swift

/-- An element and what separates it from the next one: a newline or a blank that may follow the
element, and characters that begin no token. -/
structure Item where
  element : Element
  /-- The first character behind the element. -/
  first : Char
  /-- The other characters up to the next element. -/
  others : List Char
  ends : element.EndsBefore first
  inert : ∀ c ∈ others, IsInert c

namespace Item

/-- The characters between an element and the next one. -/
def separator (i : Item) : List Char := i.first :: i.others

/-- The characters of an element and of what separates it from the next one. -/
def chars (i : Item) : List Char := i.element.chars ++ i.separator

/-- The token that an element is, and the characters behind it. -/
def parts (i : Item) : List Part :=
  .token i.element.kind i.element.chars :: i.separator.map .loose

lemma isInert_separator (i : Item) : ∀ c ∈ i.separator, IsInert c := by
  intro c hc
  rcases List.mem_cons.mp hc with rfl | hc
  · rcases i.ends.eq_or_eq with hfirst | hfirst <;> rw [hfirst] <;> decide
  · exact i.inert c hc

/-- An element is scanned as its token, whatever follows what separates it from the next one. -/
lemma scan_element (i : Item) (rest : List Char) :
    Scan i.element.chars (i.separator ++ rest) [.token i.element.kind i.element.chars] :=
  .single_token (i.element.lexeme?_chars i.ends (i.others ++ rest))

/-- An item is scanned as its token and loose characters. -/
lemma scan (i : Item) (rest : List Char) : Scan i.chars rest i.parts :=
  (i.scan_element rest).append (.of_isInert i.isInert_separator rest)

end Item

/-- The text of items that follow each other. -/
def render (items : List Item) : List Char := items.flatMap Item.chars

/-- The tokens of items that follow each other from offset `start` on. -/
def layout (start : Nat) : List Item → List Token
  | [] => []
  | i :: items =>
    ⟨start, i.element.chars.length, i.element.kind⟩ :: layout (start + i.chars.length) items

lemma render_append (before after : List Item) :
    render (before ++ after) = render before ++ render after :=
  List.flatMap_append

lemma render_cons (i : Item) (items : List Item) : render (i :: items) = i.chars ++ render items :=
  rfl

/-- The items are scanned one after the other. -/
lemma scan_render (items : List Item) (rest : List Char) :
    Scan (render items) rest (items.flatMap Item.parts) := by
  induction items with
  | nil => exact .nil rest
  | cons i items ih => exact (i.scan (render items ++ rest)).append ih

lemma Part.tokensAt_map_loose (start : Nat) (cs : List Char) (parts : List Part) :
    tokensAt start (cs.map loose ++ parts) = tokensAt (start + cs.length) parts := by
  induction cs generalizing start with
  | nil => rfl
  | cons c cs ih =>
    rw [List.map_cons, List.cons_append, tokensAt, ih, List.length_cons, Nat.add_assoc,
      Nat.add_comm 1]

lemma tokensAt_parts (start : Nat) (items : List Item) :
    Part.tokensAt start (items.flatMap Item.parts) = layout start items := by
  induction items generalizing start with
  | nil => rfl
  | cons i items ih =>
    rw [List.flatMap_cons, Item.parts, List.cons_append, Part.tokensAt, Part.tokensAt_map_loose,
      ih, layout, Item.chars, List.length_append, Nat.add_assoc]

lemma filterMap_token?_parts (items : List Item) :
    (items.flatMap Item.parts).filterMap Part.token? =
      items.map fun i => (i.element.kind, i.element.chars) := by
  induction items with
  | nil => rfl
  | cons i items ih =>
    have hloose : (i.separator.map Part.loose).filterMap Part.token? = [] := by
      simp [Part.token?]
    rw [List.flatMap_cons, List.filterMap_append, ih, Item.parts, List.filterMap_cons, hloose]
    rfl

lemma filterMap_loose?_parts (items : List Item) :
    (items.flatMap Item.parts).filterMap Part.loose? = items.flatMap Item.separator := by
  induction items with
  | nil => rfl
  | cons i items ih =>
    have hloose : (i.separator.map Part.loose).filterMap Part.loose? = i.separator := by
      simp [List.filterMap_map, Function.comp_def, Part.loose?]
    rw [List.flatMap_cons, List.filterMap_append, ih, Item.parts, List.filterMap_cons, hloose]
    rfl

lemma tokens_render_eq_layout (items : List Item) : tokens (render items) = layout 0 items := by
  rw [(scan_render items []).tokens_eq, tokensAt_parts]

lemma mem_layout (start : Nat) (before : List Item) (i : Item) (after : List Item) :
    ⟨start + (render before).length, i.element.chars.length, i.element.kind⟩ ∈
      layout start (before ++ i :: after) := by
  induction before generalizing start with
  | nil => exact List.mem_cons_self
  | cons j before ih =>
    have hlater := ih (start + j.chars.length)
    rw [Nat.add_assoc, ← List.length_append, ← render_cons] at hlater
    exact List.mem_cons_of_mem _ hlater

/-- Each offset of an element has the kind of the element. -/
lemma kindAt_element (before : List Item) (i : Item) (after : List Item) {k : Nat}
    (hk : k < i.element.chars.length) :
    Token.kindAt (tokens (render (before ++ i :: after))) ((render before).length + k : Nat) =
      i.element.kind := by
  have hmem := mem_layout 0 before i after
  rw [← tokens_render_eq_layout, Nat.zero_add] at hmem
  refine kindAt_eq_of_mem hmem ⟨?_, ?_⟩
  · exact Int.ofNat_le.mpr (Nat.le_add_right _ k)
  · exact Int.ofNat_lt.mpr (Nat.add_lt_add_left hk _)

/-- No token covers an offset between two elements. -/
lemma kindAt_separator (before : List Item) (i : Item) (after : List Item) {k : Nat}
    (hk : k < i.separator.length) :
    Token.kindAt (tokens (render (before ++ i :: after)))
      ((render before).length + i.element.chars.length + k : Nat) = .other := by
  have hc : IsInert i.separator[k] := i.isInert_separator _ (List.getElem_mem hk)
  have hsplit : i.separator = i.separator.take k ++ i.separator[k] :: i.separator.drop (k + 1) := by
    rw [← List.drop_eq_getElem_cons hk, List.take_append_drop]
  generalize i.separator[k] = c at hc hsplit
  have hgap : Scan (i.separator.take k) (c :: (i.separator.drop (k + 1) ++ render after)) _ :=
    .of_isInert (fun d hd => i.isInert_separator d (List.mem_of_mem_take hd)) _
  have helement := i.scan_element (render after)
  rw [hsplit, List.append_assoc, List.cons_append] at helement
  have hkind := Scan.kindAt_eq ((scan_render before _).append (helement.append hgap))
  have htext : render before ++ (i.element.chars ++ i.separator.take k) ++
      c :: (i.separator.drop (k + 1) ++ render after) = render (before ++ i :: after) := by
    rw [render_append, render_cons, Item.chars]
    conv_rhs => rw [hsplit]
    simp only [List.append_assoc, List.cons_append]
  have hlength : (render before ++ (i.element.chars ++ i.separator.take k)).length =
      (render before).length + i.element.chars.length + k := by
    rw [List.length_append, List.length_append, List.length_take_of_le (Nat.le_of_lt hk),
      Nat.add_assoc]
  rwa [lexeme?_of_isInert hc, htext, hlength] at hkind

/-- The tokens of a text that is written from elements are the elements, each with its kind, its
place and its characters, and between them stands what separates them. -/
theorem tokens_render (items : List Item) :
    tokens (render items) = layout 0 items ∧
      tokenTexts (render items) = items.map (fun i => (i.element.kind, i.element.chars)) ∧
      looseChars (render items) = items.flatMap Item.separator ∧
      ∀ before i after, items = before ++ i :: after → ∀ k : Nat,
        (k < i.element.chars.length →
          Token.kindAt (tokens (render items)) ((render before).length + k : Nat) =
            i.element.kind) ∧
        (k < i.separator.length →
          Token.kindAt (tokens (render items))
            ((render before).length + i.element.chars.length + k : Nat) = .other) := by
  have hscan := scan_render items []
  refine ⟨tokens_render_eq_layout items, ?_, ?_, ?_⟩
  · rw [hscan.tokenTexts_eq, filterMap_token?_parts]
  · rw [hscan.looseChars_eq, filterMap_loose?_parts]
  · rintro before i after rfl k
    exact ⟨kindAt_element before i after, kindAt_separator before i after⟩

/-- A quote in a comment and the beginning of a comment in a string. -/
example :
    (tokens "/*/*\"*/*/ \"/*\" 1_0.5".toList).map (fun t => (t.start, t.length, t.kind)) =
      [(0, 9, .comment), (10, 4, .string), (15, 5, .number)] := by
  decide +kernel

end ParenLint.Swift
