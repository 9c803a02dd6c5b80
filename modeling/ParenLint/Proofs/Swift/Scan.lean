import ParenLint.Proofs.Swift.TokenStream

/-!
# Scans of the front of a text

A scan cuts the front of a text into tokens and loose characters, with the rest of the text in view.
Scans of adjacent stretches compose, and between two offsets that lie inside no token there is one.
-/

namespace ParenLint.Swift

open ParenLint.Text

/-! ### Tokens and what is left of a text without them -/

/-- The tokens of a text, each with its kind and its characters. -/
def tokenTexts (contents : List Char) : List (TokenKind × List Char) :=
  (tokens contents).map fun t => (t.kind, t.text contents)

/-- The text `cs`, which begins at `offset`, without the given tokens. -/
def cutOut (offset : Nat) : List Token → List Char → List Char
  | [], cs => cs
  | t :: ts, cs => cs.take (t.start - offset) ++ cutOut t.stop ts (cs.drop (t.stop - offset))

/-- A character in front of all tokens stays. -/
lemma cutOut_cons {offset : Nat} {ts : List Token} (h : ∀ t ∈ ts, offset + 1 ≤ t.start) (c : Char)
    (cs : List Char) : cutOut offset ts (c :: cs) = c :: cutOut (offset + 1) ts cs := by
  cases ts with
  | nil => rfl
  | cons t ts =>
    have hle := h t List.mem_cons_self
    have hstart : t.start - offset = (t.start - (offset + 1)) + 1 := by omega
    have hstop : t.stop - offset = (t.stop - (offset + 1)) + 1 := by
      rw [Token.stop]
      omega
    rw [cutOut, hstart, hstop]
    rfl

/-- The characters of a text outside its tokens. -/
def looseChars (contents : List Char) : List Char := cutOut 0 (tokens contents) contents

/-- The character is neither a blank nor a parenthesis. -/
def isFirmChar (c : Char) : Bool := !isBlank c && c ≠ '(' && c ≠ ')'

/-! ### Parts of a text -/

/-- A token or a character outside all tokens. -/
inductive Part
  | token (kind : TokenKind) (text : List Char)
  | loose (c : Char)
  deriving DecidableEq, Repr

namespace Part

/-- The characters of a part. -/
def text : Part → List Char
  | token _ text => text
  | loose c => [c]

/-- The token, with its kind and its characters. -/
def token? : Part → Option (TokenKind × List Char)
  | token kind text => some (kind, text)
  | loose _ => none

/-- The loose character. -/
def loose? : Part → Option Char
  | token _ _ => none
  | loose c => some c

/-- Blanks and parentheses may come and go where they are loose. -/
def isFirm : Part → Bool
  | token _ _ => true
  | loose c => isFirmChar c

/-- The characters of parts. -/
def texts (parts : List Part) : List Char := parts.flatMap text

@[simp] lemma texts_cons (p : Part) (parts : List Part) :
    texts (p :: parts) = p.text ++ texts parts := rfl

@[simp] lemma texts_append (ps qs : List Part) : texts (ps ++ qs) = texts ps ++ texts qs :=
  List.flatMap_append

lemma filterMap_token?_filter_isFirm (parts : List Part) :
    (parts.filter isFirm).filterMap token? = parts.filterMap token? := by
  rw [List.filterMap_filter]
  congr
  funext p
  cases p with
  | token kind text => rfl
  | loose c => exact ite_self none

lemma filterMap_loose?_filter_isFirm (parts : List Part) :
    (parts.filter isFirm).filterMap loose? = (parts.filterMap loose?).filter isFirmChar := by
  rw [List.filterMap_filter, List.filter_filterMap]
  congr
  funext p
  cases p with
  | token kind text => rfl
  | loose c => cases hc : isFirmChar c <;> simp [isFirm, loose?, Option.filter, hc]

lemma filter_isFirm_map_loose {cs : List Char} (h : ∀ c ∈ cs, isFirmChar c = false) :
    (cs.map loose).filter isFirm = [] := by
  rw [List.filter_eq_nil_iff]
  intro p hp
  obtain ⟨c, hc, rfl⟩ := List.mem_map.mp hp
  simp [isFirm, h c hc]

/-- The tokens among parts that begin at `start`. -/
def tokensAt (start : Nat) : List Part → List Token
  | [] => []
  | token kind text :: parts =>
    ⟨start, text.length, kind⟩ :: tokensAt (start + text.length) parts
  | loose _ :: parts => tokensAt (start + 1) parts

lemma le_start_of_mem_tokensAt {start : Nat} {parts : List Part} {t : Token}
    (ht : t ∈ tokensAt start parts) : start ≤ t.start := by
  induction parts generalizing start with
  | nil => simp [tokensAt] at ht
  | cons p parts ih =>
    cases p with
    | token kind text =>
      rcases List.mem_cons.mp ht with rfl | ht
      · exact Nat.le_refl _
      · exact Nat.le_trans (Nat.le_add_right _ _) (ih ht)
    | loose c => exact Nat.le_of_succ_le (ih ht)

lemma stop_le_of_mem_tokensAt {start : Nat} {parts : List Part} {t : Token}
    (ht : t ∈ tokensAt start parts) : t.stop ≤ start + (texts parts).length := by
  induction parts generalizing start with
  | nil => simp [tokensAt] at ht
  | cons p parts ih =>
    rw [texts_cons, List.length_append, ← Nat.add_assoc]
    cases p with
    | token kind text =>
      rcases List.mem_cons.mp ht with rfl | ht
      · exact Nat.le_add_right _ _
      · exact ih ht
    | loose c => exact ih ht

lemma tokensAt_append (start : Nat) (ps qs : List Part) :
    tokensAt start (ps ++ qs) = tokensAt start ps ++ tokensAt (start + (texts ps).length) qs := by
  induction ps generalizing start with
  | nil => rfl
  | cons p ps ih =>
    rw [texts_cons, List.length_append, ← Nat.add_assoc]
    cases p with
    | token kind text => exact congrArg _ (ih _)
    | loose c => exact ih _

lemma map_tokensAt (before : List Char) (parts : List Part) (after : List Char) :
    (tokensAt before.length parts).map
        (fun t => (t.kind, t.text (before ++ texts parts ++ after))) =
      parts.filterMap token? := by
  induction parts generalizing before with
  | nil => rfl
  | cons p parts ih =>
    have hbehind := ih (before ++ p.text)
    rw [List.append_assoc before, ← texts_cons, List.length_append] at hbehind
    cases p with
    | token kind text =>
      have hhead : Token.text ⟨before.length, text.length, kind⟩
          (before ++ texts (token kind text :: parts) ++ after) = text := by
        simp [Token.text, Part.text]
      rw [tokensAt, List.map_cons, hhead]
      exact congrArg _ hbehind
    | loose c => exact hbehind

lemma cutOut_tokensAt (start : Nat) (parts : List Part) :
    cutOut start (tokensAt start parts) (texts parts) = parts.filterMap loose? := by
  induction parts generalizing start with
  | nil => rfl
  | cons p parts ih =>
    cases p with
    | token kind text =>
      simp only [tokensAt, cutOut, Token.stop, Nat.sub_self, List.take_zero, List.nil_append,
        Nat.add_sub_cancel_left, texts_cons, Part.text, List.drop_left]
      exact ih (start + text.length)
    | loose c =>
      refine (cutOut_cons (fun t ht => le_start_of_mem_tokensAt ht) _ _).trans ?_
      exact congrArg _ (ih (start + 1))

end Part

/-! ### Scans -/

/-- The scan of `front ++ rest` cuts `front` into the given parts and comes to stand at `rest`. -/
inductive Scan : List Char → List Char → List Part → Prop
  | nil (rest : List Char) : Scan [] rest []
  | token {text front rest : List Char} {kind : TokenKind} {parts : List Part}
      (hlexeme : lexeme? (text ++ front ++ rest) = some (kind, text.length))
      (hscan : Scan front rest parts) : Scan (text ++ front) rest (.token kind text :: parts)
  | loose {c : Char} {front rest : List Char} {parts : List Part}
      (hlexeme : lexeme? (c :: (front ++ rest)) = none) (hscan : Scan front rest parts) :
      Scan (c :: front) rest (.loose c :: parts)

namespace Scan

variable {front mid rest contents : List Char} {parts ps qs : List Part} {c : Char}

lemma texts_eq (h : Scan front rest parts) : Part.texts parts = front := by
  induction h with
  | nil rest => rfl
  | token hlexeme hscan ih => rw [Part.texts_cons, ih, Part.text]
  | loose hlexeme hscan ih => rw [Part.texts_cons, ih, Part.text, List.singleton_append]

lemma single_token {text : List Char} {kind : TokenKind}
    (h : lexeme? (text ++ rest) = some (kind, text.length)) :
    Scan text rest [.token kind text] := by
  have htoken : Scan (text ++ []) rest [.token kind text] := .token (by simpa using h) (.nil rest)
  rwa [List.append_nil] at htoken

/-- Scans of adjacent stretches compose. -/
lemma append (h : Scan front (mid ++ rest) ps) (hmid : Scan mid rest qs) :
    Scan (front ++ mid) rest (ps ++ qs) := by
  generalize hmidrest : mid ++ rest = behind at h
  induction h with
  | nil _ => exact hmid
  | token hlexeme hscan ih =>
    subst hmidrest
    rw [List.append_assoc]
    exact .token (by simpa using hlexeme) (ih rfl)
  | loose hlexeme hscan ih =>
    subst hmidrest
    exact .loose (by simpa using hlexeme) (ih rfl)

/-- The tokens of a text are those of a scan and those of the rest. -/
lemma tokensFrom_eq (h : Scan front rest parts) (start : Nat) :
    tokensFrom start (front ++ rest) =
      Part.tokensAt start parts ++ tokensFrom (start + front.length) rest := by
  induction h generalizing start with
  | nil rest => rfl
  | @token text front rest kind parts hlexeme hscan ih =>
    rw [tokensFrom_of_some hlexeme, Part.tokensAt, List.append_assoc, List.drop_left, ih,
      List.length_append, Nat.add_assoc]
    rfl
  | @loose c front rest parts hlexeme hscan ih =>
    rw [List.cons_append, tokensFrom_of_none hlexeme, ih, Part.tokensAt, List.length_cons,
      Nat.add_right_comm, Nat.add_assoc]

/-- A front whose characters begin no lexeme is scanned character by character. -/
lemma of_isInert (h : ∀ c ∈ front, IsInert c) (rest : List Char) :
    Scan front rest (front.map Part.loose) := by
  induction front with
  | nil => exact .nil rest
  | cons c front ih =>
    exact .loose (lexeme?_of_isInert (h c List.mem_cons_self) _)
      (ih fun d hd => h d (List.mem_cons_of_mem c hd))

/-- The scan comes to stand at the end of the front, or a lexeme reaches over it. -/
theorem exists_scan_or_reaches (front rest : List Char) :
    (∃ parts, Scan front rest parts) ∨ ∃ lead x covered parts kind n, front = lead ++ x :: covered ∧
      Scan lead (x :: covered ++ rest) parts ∧ lexeme? (x :: covered ++ rest) = some (kind, n) ∧
      (x :: covered).length < n := by
  induction hlen : front.length using Nat.strongRecOn generalizing front with
  | ind k ih =>
    cases front with
    | nil => exact .inl ⟨[], .nil rest⟩
    | cons c front =>
      cases hlexeme : lexeme? (c :: front ++ rest) with
      | none =>
        obtain ⟨parts, hscan⟩ | ⟨lead, x, covered, parts, kind, n, rfl, hscan, hover, hlt⟩ :=
          ih front.length (by simp [← hlen]) front rfl
        · exact .inl ⟨_, .loose hlexeme hscan⟩
        · refine .inr ⟨c :: lead, x, covered, _, kind, n, rfl, .loose ?_ hscan, hover, hlt⟩
          simpa using hlexeme
      | some lexeme =>
        obtain ⟨kind, n⟩ := lexeme
        obtain ⟨hpos, -⟩ := lexeme?_bounds hlexeme
        by_cases hlt : (c :: front).length < n
        · exact .inr ⟨[], c, front, [], kind, n, rfl, .nil _, hlexeme, hlt⟩
        · -- The lexeme ends in the front.
          obtain ⟨text, tail, hfront, rfl⟩ : ∃ text tail, c :: front = text ++ tail ∧
              text.length = n :=
            ⟨(c :: front).take n, (c :: front).drop n, (List.take_append_drop _ _).symm,
              List.length_take_of_le (Nat.le_of_not_lt hlt)⟩
          rw [hfront] at hlexeme hlen ⊢
          rw [List.length_append] at hlen
          obtain ⟨parts, hscan⟩ | ⟨lead, x, covered, parts, kind', n', rfl, hscan, hover, hlt⟩ :=
            ih tail.length (by omega) tail rfl
          · exact .inl ⟨_, .token hlexeme hscan⟩
          · refine .inr ⟨text ++ lead, x, covered, .token kind text :: parts, kind', n',
              (List.append_assoc _ _ _).symm, .token ?_ hscan, hover, hlt⟩
            simpa using hlexeme

/-- The front of a text can be scanned if no token reaches from it into the rest. -/
theorem exists_scan (front rest : List Char) (start : Nat)
    (h : ∀ t ∈ tokensFrom start (front ++ rest),
      ¬ (t.start < start + front.length ∧ start + front.length < t.stop)) :
    ∃ parts, Scan front rest parts := by
  obtain hscan | ⟨lead, x, covered, parts, kind, n, rfl, hscan, hover, hlt⟩ :=
    exists_scan_or_reaches front rest
  · exact hscan
  · have htokens := hscan.tokensFrom_eq start
    rw [tokensFrom_of_some hover] at htokens
    rw [List.append_assoc, htokens] at h
    refine absurd ?_ (h ⟨start + lead.length, n, kind⟩ (by simp))
    simp only [Token.stop, List.length_append, List.length_cons] at hlt ⊢
    omega

/-- No token reaches over the offset where a scan has come to stand. -/
lemma not_reaches (h : Scan front rest parts) :
    ∀ t ∈ tokens (front ++ rest), ¬ (t.start < front.length ∧ front.length < t.stop) := by
  intro t ht hreaches
  rw [tokens, h.tokensFrom_eq, List.mem_append] at ht
  rcases ht with ht | ht
  · have hstop := Part.stop_le_of_mem_tokensAt ht
    rw [h.texts_eq] at hstop
    omega
  · have hstart := le_start_of_mem_tokensFrom ht
    omega

/-- No token covers the offset where a scan has come to stand if no lexeme begins there. -/
lemma not_covers_of_lexeme?_eq_none (h : Scan front (c :: rest) parts)
    (hnone : lexeme? (c :: rest) = none) :
    ∀ t ∈ tokens (front ++ c :: rest), ¬ t.Covers front.length := by
  rintro t ht ⟨hle, hlt⟩
  rw [tokens, h.tokensFrom_eq, tokensFrom_of_none hnone, List.mem_append] at ht
  rcases ht with ht | ht
  · have hstop := Part.stop_le_of_mem_tokensAt ht
    rw [h.texts_eq] at hstop
    omega
  · have hstart := le_start_of_mem_tokensFrom ht
    omega

/-- No token covers an offset where a scan has come to stand at a character that begins none. -/
lemma not_covers (h : Scan front (c :: rest) parts) (hc : IsInert c) :
    ∀ t ∈ tokens (front ++ c :: rest), ¬ t.Covers front.length :=
  h.not_covers_of_lexeme?_eq_none (lexeme?_of_isInert hc rest)

/-- The scan of the front goes on to the end of the text. -/
lemma finish (h : Scan front rest ps) (hrest : Scan rest [] qs) :
    Scan (front ++ rest) [] (ps ++ qs) :=
  append (by rwa [List.append_nil]) hrest

/-- A whole text can be scanned. -/
lemma exists_scan_nil (contents : List Char) : ∃ parts, Scan contents [] parts := by
  obtain hscan | ⟨lead, x, covered, parts, kind, n, rfl, hscan, hover, hlt⟩ :=
    exists_scan_or_reaches contents []
  · exact hscan
  · have hle := (lexeme?_bounds hover).2
    rw [List.append_nil] at hle
    omega

/-- The scan of a whole text begins with its first lexeme. -/
lemma exists_scan_of_lexeme? {kind : TokenKind} {n : Nat}
    (h : lexeme? contents = some (kind, n)) :
    ∃ parts, Scan contents [] (.token kind (contents.take n) :: parts) := by
  obtain ⟨parts, hscan⟩ := exists_scan_nil (contents.drop n)
  have hlength : (contents.take n).length = n := List.length_take_of_le (lexeme?_bounds h).2
  have htoken : Scan (contents.take n ++ contents.drop n) []
      (.token kind (contents.take n) :: parts) :=
    .token (by rw [List.append_nil, List.take_append_drop, hlength, h]) hscan
  rw [List.take_append_drop] at htoken
  exact ⟨parts, htoken⟩

/-- The tokens of a text are those of a scan of the whole text. -/
lemma tokens_eq (h : Scan contents [] parts) : tokens contents = Part.tokensAt 0 parts := by
  have htokens := h.tokensFrom_eq 0
  rwa [List.append_nil, tokensFrom_nil, List.append_nil] at htokens

/-- A scan of a whole text gives its tokens. -/
lemma tokenTexts_eq (h : Scan contents [] parts) :
    tokenTexts contents = parts.filterMap Part.token? := by
  have hmap := Part.map_tokensAt [] parts []
  rw [List.nil_append, List.append_nil, h.texts_eq] at hmap
  rw [tokenTexts, h.tokens_eq]
  exact hmap

/-- A scan of a whole text gives what is left of it without its tokens. -/
lemma looseChars_eq (h : Scan contents [] parts) :
    looseChars contents = parts.filterMap Part.loose? := by
  rw [looseChars, h.tokens_eq, ← Part.cutOut_tokensAt 0 parts, h.texts_eq]

end Scan

/-! ### Scans of two texts -/

variable {cs cs' front front' : List Char} {ps ps' : List Part}

/-- Scans of the two texts find the same tokens, and the same loose characters apart from blanks and
parentheses. -/
def SameParts (cs cs' : List Char) : Prop :=
  ∃ ps ps', Scan cs [] ps ∧ Scan cs' [] ps' ∧ ps'.filter Part.isFirm = ps.filter Part.isFirm

/-- Scans of the two texts find different tokens. -/
def OtherTokens (cs cs' : List Char) : Prop :=
  ∃ ps ps', Scan cs [] ps ∧ Scan cs' [] ps' ∧ ps'.filterMap Part.token? ≠ ps.filterMap Part.token?

lemma SameParts.refl (cs : List Char) : SameParts cs cs := by
  obtain ⟨ps, hscan⟩ := Scan.exists_scan_nil cs
  exact ⟨ps, ps, hscan, hscan, rfl⟩

/-- Stretches with the same firm parts can be put in front. -/
lemma SameParts.append (h : SameParts cs cs') (hfront : Scan front cs ps)
    (hfront' : Scan front' cs' ps') (hfirm : ps'.filter Part.isFirm = ps.filter Part.isFirm) :
    SameParts (front ++ cs) (front' ++ cs') := by
  obtain ⟨qs, qs', hscan, hscan', heq⟩ := h
  refine ⟨ps ++ qs, ps' ++ qs', hfront.finish hscan, hfront'.finish hscan', ?_⟩
  rw [List.filter_append, List.filter_append, heq, hfirm]

lemma OtherTokens.append (h : OtherTokens cs cs') (hfront : Scan front cs ps)
    (hfront' : Scan front' cs' ps') (hfirm : ps'.filter Part.isFirm = ps.filter Part.isFirm) :
    OtherTokens (front ++ cs) (front' ++ cs') := by
  obtain ⟨qs, qs', hscan, hscan', hne⟩ := h
  refine ⟨ps ++ qs, ps' ++ qs', hfront.finish hscan, hfront'.finish hscan', fun heq => hne ?_⟩
  have htokens : ps'.filterMap Part.token? = ps.filterMap Part.token? := by
    rw [← Part.filterMap_token?_filter_isFirm, hfirm, Part.filterMap_token?_filter_isFirm]
  rw [List.filterMap_append, List.filterMap_append, htokens] at heq
  exact List.append_cancel_left heq

/-- Texts with the same parts have the same tokens, and the same firm characters between them. -/
theorem SameParts.tokenTexts_eq (h : SameParts cs cs') :
    tokenTexts cs' = tokenTexts cs ∧
      (looseChars cs').filter isFirmChar = (looseChars cs).filter isFirmChar := by
  obtain ⟨ps, ps', hscan, hscan', heq⟩ := h
  rw [hscan.tokenTexts_eq, hscan'.tokenTexts_eq, hscan.looseChars_eq, hscan'.looseChars_eq,
    ← Part.filterMap_token?_filter_isFirm ps, ← Part.filterMap_token?_filter_isFirm ps',
    ← Part.filterMap_loose?_filter_isFirm ps, ← Part.filterMap_loose?_filter_isFirm ps', heq]
  exact ⟨rfl, rfl⟩

theorem OtherTokens.tokenTexts_ne (h : OtherTokens cs cs') : tokenTexts cs' ≠ tokenTexts cs := by
  obtain ⟨ps, ps', hscan, hscan', hne⟩ := h
  rwa [hscan.tokenTexts_eq, hscan'.tokenTexts_eq]

end ParenLint.Swift
