import ParenLint.Proofs.Rule.MatchIn
import ParenLint.Run.Autocorrect

/-!
# Tokens across a correction

Unwrapping keeps every token of a text exactly if the closing parentheses that it deletes lie
outside all tokens. Only the text that is joined to the end of a line could still change a token: a
stray backtick on that line must not come to stand before another one.
-/

namespace ParenLint

open ParenLint.Swift ParenLint.Text

variable {contents front rest : List Char} {m : Match}

/-! ### Successive matches -/

/-- The matches lie in the text behind `offset`, one after the other. -/
structure Successive (contents : List Char) (offset : Nat) (ms : List Match) : Prop where
  pairwise : ms.Pairwise fun m n => m.stop ≤ n.start
  le_start : ∀ m ∈ ms, offset ≤ m.start
  wrapped : ∀ m ∈ ms, ∃ before gap body gap' after, WrappedIf contents m before gap body gap' after

lemma Successive.tail {ms : List Match} {offset : Nat} (h : Successive contents offset (m :: ms)) :
    Successive contents m.stop ms := by
  obtain ⟨hpairwise, -, hwrapped⟩ := h
  obtain ⟨hle, hpairwise⟩ := List.pairwise_cons.mp hpairwise
  exact ⟨hpairwise, hle, fun n hn => hwrapped n (List.mem_cons_of_mem m hn)⟩

/-- The rest of a text can be replaced by what unwrapping makes of it. -/
lemma replaces_substitute {ms : List Match} (hcontents : contents = front ++ rest)
    (hms : Successive contents front.length ms) (hjoins : ∀ m ∈ ms, m.JoinsNoBacktick contents) :
    Replaces contents front.length rest (substitute front.length ms rest) := by
  induction ms generalizing front rest with
  | nil => exact .refl _ _ _
  | cons m ms ih =>
    obtain ⟨before, gap, body, gap', after, hwrapped⟩ := hms.wrapped m List.mem_cons_self
    obtain ⟨lead, hin⟩ := hwrapped.exists_matchIn hcontents (hms.le_start m List.mem_cons_self)
    have hafter : Replaces contents m.stop after (substitute m.stop ms after) := by
      have hbehind := hms.tail
      rw [hin.stop_eq_length] at hbehind ⊢
      exact ih hin.contents_eq_append hbehind fun n hn => hjoins n (List.mem_cons_of_mem m hn)
    have hclosing := hin.replaces_closing (hjoins m List.mem_cons_self) hafter
    have hstart := hin.replaces_start (hjoins m List.mem_cons_self) hclosing
    rw [hin.substitute_cons]
    exact hin.replaces_rest hstart

/-- Unwrapping keeps the tokens if none of them covers a closing parenthesis that is deleted, and
otherwise it changes them. -/
theorem sameParts_or_otherTokens {ms : List Match} {ps : List Part}
    (hcontents : contents = front ++ rest) (hfront : Scan front rest ps)
    (hms : Successive contents front.length ms)
    (hjoins : ∀ m ∈ ms, m.JoinsNoBacktick contents)
    (hkeyword : ∀ m ∈ ms, Token.kindAt (tokens contents) m.start = .keyword) :
    ((∀ m ∈ ms, ∀ t ∈ tokens contents, ¬ t.Covers m.closing) →
        SameParts rest (substitute front.length ms rest)) ∧
      ((∃ m ∈ ms, ∃ t ∈ tokens contents, t.Covers m.closing) →
        OtherTokens rest (substitute front.length ms rest)) := by
  induction ms generalizing front rest ps with
  | nil => exact ⟨fun _ => .refl rest, by simp⟩
  | cons m ms ih =>
    obtain ⟨before, gap, body, gap', after, hwrapped⟩ := hms.wrapped m List.mem_cons_self
    obtain ⟨lead, hin⟩ := hwrapped.exists_matchIn hcontents (hms.le_start m List.mem_cons_self)
    have hjoinsm := hjoins m List.mem_cons_self
    have hafter : Replaces contents m.stop after (substitute m.stop ms after) := by
      have hbehind := hms.tail
      rw [hin.stop_eq_length] at hbehind ⊢
      exact replaces_substitute hin.contents_eq_append hbehind fun n hn =>
        hjoins n (List.mem_cons_of_mem m hn)
    have hclosing := hin.replaces_closing hjoinsm hafter
    have hstart := hin.replaces_start hjoinsm hclosing
    obtain ⟨os, os', hopening, hopening', hfirm⟩ :=
      hin.exists_scan_opening hfront (hkeyword m List.mem_cons_self) hstart
    have hbefore : Scan (front ++ lead ++ ("if".toList ++ (gap ++ ['('])))
        (body ++ ((')' :: gap' ++ ['{']) ++ after)) (ps ++ os) := by
      rw [hin.rest_eq] at hfront
      rw [List.append_assoc front]
      refine Scan.append ?_ hopening
      simpa only [List.append_assoc] using hfront
    rw [hin.substitute_cons, hin.rest_eq]
    obtain ⟨hloose, bs, bs', hbody, hbody', hfirm'⟩ | ⟨hcovered, hother⟩ :=
      hin.scan_body_or_otherTokens hbefore hclosing
    · have hbehind := hms.tail
      have hthrough : Scan (front ++ lead ++ ("if".toList ++ (gap ++ ['('])) ++
          (body ++ (')' :: gap' ++ ['{']))) after (ps ++ os ++ bs) :=
        Scan.append (by rwa [List.append_assoc body]) hbody
      rw [← List.append_assoc] at hthrough
      rw [hin.stop_eq_length] at hbehind
      have hrest := ih hin.contents_eq_append hthrough hbehind
        (fun n hn => hjoins n (List.mem_cons_of_mem m hn))
        (fun n hn => hkeyword n (List.mem_cons_of_mem m hn))
      rw [← hin.stop_eq_length] at hrest
      obtain ⟨hsame, hother⟩ := hrest
      constructor
      · intro hall
        have hbodies := (hsame fun n hn => hall n (List.mem_cons_of_mem m hn)).append
          hbody hbody' hfirm'
        rw [List.append_assoc, List.append_assoc body] at hbodies
        simpa only [List.append_assoc] using hbodies.append hopening hopening' hfirm
      · rintro ⟨n, hn, t, ht, hcovers⟩
        obtain rfl | hn := List.mem_cons.mp hn
        · exact absurd hcovers (hloose t ht)
        · have hbodies := (hother ⟨n, hn, t, ht, hcovers⟩).append hbody hbody' hfirm'
          rw [List.append_assoc, List.append_assoc body] at hbodies
          simpa only [List.append_assoc] using hbodies.append hopening hopening' hfirm
    · obtain ⟨t, ht, hcovers⟩ := hcovered
      constructor
      · intro hall
        exact absurd hcovers (hall m List.mem_cons_self t ht)
      · intro _
        simpa only [List.append_assoc] using hother.append hopening hopening' hfirm

/-! ### What a correction does to tokens -/

lemma successive_rewritten {kindAt : Nat → TokenKind} {enablement : Enablement} :
    Successive contents 0 (rewritten kindAt enablement contents) := by
  refine ⟨pairwise_rewritten, fun m _ => Nat.zero_le _, ?_⟩
  intro m hm
  obtain ⟨-, before, gap, body, gap', after, h, -⟩ := exists_wrappedIf_of_mem_rewritten hm
  exact ⟨before, gap, body, gap', after, h⟩

/-- A correction that joins no line to one with a stray backtick keeps the tokens of the text
exactly if all closing parentheses that it deletes lie outside them. It then changes only blanks
and parentheses between the tokens. -/
theorem tokens_kept_iff {file : SourceFile} {enablement : Enablement}
    {failure : Option WriteFailure} {contents' : List Char}
    (hwritten : contents' ∈ (correct file (fun o => Token.kindAt (tokens file.contents) o)
      enablement failure).written)
    (hjoins : ∀ m ∈ rewritten (fun o => Token.kindAt (tokens file.contents) o) enablement
      file.contents, m.JoinsNoBacktick file.contents) :
    (tokenTexts contents' = tokenTexts file.contents ↔
      ∀ m ∈ rewritten (fun o => Token.kindAt (tokens file.contents) o) enablement file.contents,
        ∀ t ∈ tokens file.contents, ¬ t.Covers m.closing) ∧
    (tokenTexts contents' = tokenTexts file.contents →
      (looseChars contents').filter isFirmChar = (looseChars file.contents).filter isFirmChar) := by
  have hne : rewritten (fun o => Token.kindAt (tokens file.contents) o) enablement file.contents ≠
      [] := by
    intro hnil
    rw [(correct_of_eq_nil hnil).1] at hwritten
    cases hwritten
  rw [(correct_of_ne_nil hne).1, unwrapAll_rewritten, List.mem_singleton] at hwritten
  have hcontents : file.contents = [] ++ file.contents := rfl
  obtain ⟨hsame, hother⟩ := sameParts_or_otherTokens hcontents (.nil file.contents)
    successive_rewritten hjoins fun m hm => (exists_wrappedIf_of_mem_rewritten hm).1
  rw [List.length_nil, ← hwritten] at hsame hother
  have hiff : tokenTexts contents' = tokenTexts file.contents ↔
      ∀ m ∈ rewritten (fun o => Token.kindAt (tokens file.contents) o) enablement file.contents,
        ∀ t ∈ tokens file.contents, ¬ t.Covers m.closing := by
    constructor
    · intro heq m hm t ht hcovers
      exact (hother ⟨m, hm, t, ht, hcovers⟩).tokenTexts_ne heq
    · intro hall
      exact (hsame hall).tokenTexts_eq.1
  exact ⟨hiff, fun heq => (hsame (hiff.mp heq)).tokenTexts_eq.2⟩

/-- The first opening brace is in a string literal, and so is the closing parenthesis that is
deleted. -/
theorem tokens_not_kept :
    let file := SourceFile.ofContents "if (s == \") \x7b\") \x7b".toList none
    let kindAt := fun o : Nat => Token.kindAt (tokens file.contents) o
    let contents' := "if s == \" \x7b\") \x7b".toList
    contents' ∈ (correct file kindAt (fun spans _ => spans) none).written ∧
      (∀ m ∈ rewritten kindAt (fun spans _ => spans) file.contents,
        m.JoinsNoBacktick file.contents) ∧
      (.string, "\") \x7b\"".toList) ∈ tokenTexts file.contents ∧
      (∃ m ∈ rewritten kindAt (fun spans _ => spans) file.contents,
        ∃ t ∈ tokens file.contents, t.Covers m.closing) ∧
      tokenTexts contents' ≠ tokenTexts file.contents := by
  intro file kindAt contents'
  have hwritten : contents' ∈ (correct file kindAt (fun spans _ => spans) none).written := by
    decide +kernel
  have hbacktick : '\x60' ∉ file.contents := by decide +kernel
  have hjoins : ∀ m ∈ rewritten kindAt (fun spans _ => spans) file.contents,
      m.JoinsNoBacktick file.contents := fun m _ offset _ _ ⟨i, _, hi, _⟩ =>
    hbacktick (List.mem_of_getElem? hi)
  have hcovered : ∃ m ∈ rewritten kindAt (fun spans _ => spans) file.contents,
      ∃ t ∈ tokens file.contents, t.Covers m.closing := by decide +kernel
  refine ⟨hwritten, hjoins, by decide +kernel, hcovered, fun heq => ?_⟩
  obtain ⟨m, hm, t, ht, hcovers⟩ := hcovered
  exact (tokens_kept_iff hwritten hjoins).1.mp heq m hm t ht hcovers

-- Why no line may be joined to one with a stray backtick: here it becomes part of a name.
example :
    let file := SourceFile.ofContents "\x60 if (a)\n\x7b \x60".toList none
    let contents' := "\x60 if a \x7b \x60".toList
    (correctOnce file none).written = [contents'] ∧
      (.keyword, "if".toList) ∈ tokenTexts file.contents ∧
      tokenTexts contents' = [(.identifier, contents')] := by
  decide +kernel

end ParenLint
