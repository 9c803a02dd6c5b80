import Mathlib.Data.List.Pairwise
import ParenLint.Proofs.Source.Position
import ParenLint.Proofs.Suppression.Deciding
import ParenLint.Proofs.Swift.TokenStream

/-!
# Plain commands

For a rule that only plain commands name, the last of them that begins no later than an offset says
whether the rule is enabled there. Lines and characters do not come into it.
-/

namespace ParenLint.Command

open ParenLint.Swift

variable {c d : Command} {cs : List Command} {rule : String} {line character : Int}

/-! ### Where commands begin -/

/-- The commands that `readFrom` finds, each with the offset at which it begins. -/
def locatedFrom (place : Int → Int × Int) (start : Nat) : List Char → List (Nat × Command)
  | [] => []
  | c :: rest =>
    match read? (place start) (c :: rest) with
    | some (command, left) =>
      let used := rest.length + 1 - left.length
      (start, command) :: locatedFrom place (start + max 1 used) (rest.drop (used - 1))
    | none => locatedFrom place (start + 1) rest
termination_by cs => cs.length
decreasing_by all_goals (simp only [List.length_cons, List.length_drop]; omega)

/-- The commands in the comments of a file, each with the offset at which it begins. -/
def located (file : SourceFile) (tokens : List Token) : List (Nat × Command) :=
  (Token.comments tokens).flatMap fun t =>
    locatedFrom (positionIn file.lineStarts) t.start (t.text file.contents)

lemma map_snd_locatedFrom (place : Int → Int × Int) (start : Nat) (cs : List Char) :
    (locatedFrom place start cs).map Prod.snd = readFrom place start cs := by
  fun_induction locatedFrom place start cs with
  | case1 => rw [readFrom]; rfl
  | case2 start c rest command left hread used ih =>
    rw [readFrom, hread, List.map_cons, ih]
  | case3 start c rest hread ih =>
    rw [readFrom, hread, ih]

lemma map_snd_located (file : SourceFile) (ts : List Token) :
    (located file ts).map Prod.snd = inComments file ts := by
  rw [located, inComments, List.map_flatMap]
  simp only [map_snd_locatedFrom]

/-- A command begins with the word that introduces it, and is placed there. -/
lemma of_read?_eq_some {place : Int × Int} {cs left : List Char}
    (h : read? place cs = some (c, left)) :
    introduction <+: cs ∧ c.line = place.1 ∧ c.character = place.2 := by
  simp only [read?, Option.bind_eq_bind, Option.bind_eq_some_iff] at h
  obtain ⟨rest, hrest, ⟨action, rest'⟩, -, h⟩ := h
  have hintroduction : introduction <+: cs := by
    rw [behind?] at hrest
    split_ifs at hrest with hprefix
    exact List.isPrefixOf_iff_prefix.mp hprefix
  refine ⟨hintroduction, ?_⟩
  split at h
  · cases h
  · cases h
    exact ⟨rfl, rfl⟩

/-- Each command stands inside the text, begins with the word that introduces it, and is placed
where it begins. -/
lemma of_mem_locatedFrom {place : Int → Int × Int} {start : Nat} {cs : List Char}
    {p : Nat × Command} (hp : p ∈ locatedFrom place start cs) :
    start ≤ p.1 ∧ p.1 < start + cs.length ∧ introduction <+: cs.drop (p.1 - start) ∧
      p.2.line = (place p.1).1 ∧ p.2.character = (place p.1).2 := by
  fun_induction locatedFrom place start cs with
  | case1 => cases hp
  | case2 start c rest command left hread used ih =>
    rcases List.mem_cons.mp hp with rfl | hp
    · obtain ⟨hintroduction, hline, hcharacter⟩ := of_read?_eq_some hread
      refine ⟨Nat.le_refl _, ?_, ?_, hline, hcharacter⟩
      · simp
      · simpa using hintroduction
    · obtain ⟨hle, hlt, hintroduction, hplace⟩ := ih hp
      rw [List.length_drop] at hlt
      rw [List.drop_drop] at hintroduction
      have hoffset : p.1 - start = used - 1 + (p.1 - (start + max 1 used)) + 1 := by omega
      rw [hoffset, List.drop_succ_cons, List.length_cons]
      exact ⟨by omega, by omega, hintroduction, hplace⟩
  | case3 start c rest hread ih =>
    obtain ⟨hle, hlt, hintroduction, hplace⟩ := ih hp
    have hoffset : p.1 - start = p.1 - (start + 1) + 1 := by omega
    rw [hoffset, List.drop_succ_cons, List.length_cons]
    exact ⟨by omega, by omega, hintroduction, hplace⟩

lemma pairwise_locatedFrom (place : Int → Int × Int) (start : Nat) (cs : List Char) :
    (locatedFrom place start cs).Pairwise fun p q => p.1 < q.1 := by
  fun_induction locatedFrom place start cs with
  | case1 => exact List.Pairwise.nil
  | case2 start c rest command left hread used ih =>
    refine List.pairwise_cons.mpr ⟨?_, ih⟩
    intro p hp
    have hle := (of_mem_locatedFrom hp).1
    omega
  | case3 start c rest hread ih => exact ih

/-- Each command begins inside a comment with the word that introduces it, and is placed there. -/
lemma of_mem_located {file : SourceFile} {ts : List Token} {p : Nat × Command}
    (hp : p ∈ located file ts) :
    ∃ t ∈ Token.comments ts, t.start ≤ p.1 ∧ p.1 < t.stop ∧
      introduction <+: file.contents.drop p.1 ∧
      p.2.line = (file.location p.1).line ∧ p.2.character = (file.location p.1).character := by
  obtain ⟨t, ht, hp⟩ := List.mem_flatMap.mp hp
  obtain ⟨hle, hlt, hintroduction, hplace⟩ := of_mem_locatedFrom hp
  refine ⟨t, ht, hle, ?_, ?_, hplace⟩
  · have hlength : (t.text file.contents).length ≤ t.length := List.length_take_le _ _
    rw [Token.stop]
    omega
  · rw [Token.text, List.drop_take, List.drop_drop, Nat.add_sub_cancel' hle] at hintroduction
    exact hintroduction.trans (List.take_prefix _ _)

/-- The commands of a file begin one behind the other. -/
lemma pairwise_located (file : SourceFile) :
    (located file (tokens file.contents)).Pairwise fun p q => p.1 < q.1 := by
  rw [located, List.pairwise_flatMap]
  refine ⟨fun t _ => pairwise_locatedFrom _ _ _, ?_⟩
  have htokens : (Token.comments (tokens file.contents)).Pairwise fun t u => t.stop ≤ u.start :=
    (pairwise_tokensFrom 0 file.contents).filter _
  apply htokens.imp
  intro t u hle p hp q hq
  obtain ⟨-, hlt, -⟩ := of_mem_locatedFrom hp
  obtain ⟨hge, -⟩ := of_mem_locatedFrom hq
  have hlength : (t.text file.contents).length ≤ t.length := List.length_take_le _ _
  rw [Token.stop] at hle
  omega

/-- Commands that begin at one offset are the same. -/
lemma eq_of_mem_located {file : SourceFile} {p q : Nat × Command}
    (hp : p ∈ located file (tokens file.contents)) (hq : q ∈ located file (tokens file.contents))
    (h : p.1 = q.1) : p = q := by
  have hnodup : ((located file (tokens file.contents)).map Prod.fst).Nodup :=
    List.pairwise_map.mpr ((pairwise_located file).imp Nat.ne_of_lt)
  exact List.inj_on_of_nodup_map hnodup hp hq h

/-- A command acts at an offset if it begins no later. -/
lemma actsBy_iff {file : SourceFile} {ts : List Token} {p : Nat × Command}
    (hp : p ∈ located file ts) (offset : Int) :
    p.2.ActsBy (file.location offset).line (file.location offset).character ↔
      (p.1 : Int) ≤ offset := by
  obtain ⟨-, -, -, -, -, hline, hcharacter⟩ := of_mem_located hp
  rw [ActsBy, hline, hcharacter]
  exact positionIn_le_iff

/-! ### The last of them decides -/

/-- Plain commands are their own expansion. -/
lemma decides_flatMap_expand_of_plain (hplain : ∀ c ∈ cs, rule ∈ c.rules → c.modifier = none) :
    Decides c rule line character (cs.flatMap expand) ↔ Decides c rule line character cs := by
  have hexpand : (cs.filter fun c => rule ∈ c.rules).flatMap expand =
      (cs.filter fun c => rule ∈ c.rules).flatMap fun c => [c] := by
    apply List.flatMap_congr
    intro c hc
    obtain ⟨hc, hrule⟩ := List.mem_filter.mp hc
    rw [expand, hplain c hc (of_decide_eq_true hrule)]
  rw [Decides, Decides, switching_flatMap_expand, hexpand, List.flatMap_singleton',
    switching_filter]

/-- A command acts at another one if it does not begin behind it. -/
lemma actsBy_located_iff {file : SourceFile} {ts : List Token} {p q : Nat × Command}
    (hp : p ∈ located file ts) (hq : q ∈ located file ts) :
    q.2.ActsBy p.2.line p.2.character ↔ q.1 ≤ p.1 := by
  obtain ⟨-, -, -, -, -, hline, hcharacter⟩ := of_mem_located hp
  rw [hline, hcharacter, actsBy_iff hq, Int.ofNat_le]

/-- Of plain commands the one that begins last decides. -/
lemma decides_located_iff {file : SourceFile} {offset : Int} {p : Nat × Command}
    (hp : p ∈ located file (tokens file.contents)) :
    Decides p.2 rule (file.location offset).line (file.location offset).character
        ((located file (tokens file.contents)).map Prod.snd) ↔
      rule ∈ p.2.rules ∧ (p.1 : Int) ≤ offset ∧
        ∀ q ∈ located file (tokens file.contents), rule ∈ q.2.rules → (q.1 : Int) ≤ offset →
          q.1 ≤ p.1 := by
  have hcounts : ∀ q ∈ located file (tokens file.contents), rule ∈ q.2.rules →
      (q.1 : Int) ≤ offset → q.2 ∈ switching rule (file.location offset).line
        (file.location offset).character
          ((located file (tokens file.contents)).map Prod.snd) := by
    intro q hq hrule hle
    exact mem_switching.mpr ⟨List.mem_map_of_mem hq, hrule, (actsBy_iff hq offset).mpr hle⟩
  constructor
  · intro h
    obtain ⟨-, hrule, hacts⟩ := h.mem
    refine ⟨hrule, (actsBy_iff hp offset).mp hacts, ?_⟩
    intro q hq hrule' hle
    exact (actsBy_located_iff hp hq).mp (h.actsBy (hcounts q hq hrule' hle))
  · rintro ⟨hrule, hle, hlast⟩
    obtain ⟨c, hc⟩ := exists_decides (List.ne_nil_of_mem (hcounts p hp hrule hle))
    obtain ⟨hmem, hrule', hacts⟩ := hc.mem
    obtain ⟨q, hq, rfl⟩ := List.mem_map.mp hmem
    have hpq := (actsBy_located_iff hq hp).mp (hc.actsBy (hcounts p hp hrule hle))
    have hqp := hlast q hq hrule' ((actsBy_iff hq offset).mp hacts)
    rwa [eq_of_mem_located hp hq (Nat.le_antisymm hpq hqp)]

/-- A rule that only plain commands name is disabled at an offset exactly if the last of them that
begins no later is one that disables it. For no rule do the commands matter that do not name it,
whatever their modifiers. -/
theorem disabled_iff_last_plain_disables (file : SourceFile) (rule : String) (offset : Int) :
    let commands := located file (tokens file.contents)
    let regions := regions file (tokens file.contents)
    ((∀ p ∈ commands, rule ∈ p.2.rules → p.2.modifier = none) →
      (isEnabled regions file rule offset = false ↔
        ∃ p ∈ commands, p.2.modifier = none ∧ rule ∈ p.2.rules ∧ (p.1 : Int) ≤ offset ∧
          (∀ q ∈ commands, q.2.modifier = none → rule ∈ q.2.rules → (q.1 : Int) ≤ offset →
            q.1 ≤ p.1) ∧ p.2.action = .disable)) ∧
    ∀ others : List Command,
      (others.filter fun c => rule ∈ c.rules) =
        ((inComments file (tokens file.contents)).filter fun c => rule ∈ c.rules) →
      isEnabled (sort (others.flatMap expand)) file rule offset =
        isEnabled regions file rule offset := by
  intro commands regions
  have hregions : regions = sort ((commands.map Prod.snd).flatMap expand) := by
    rw [map_snd_located]
    rfl
  constructor
  · intro hplain
    have hplain' : ∀ c ∈ commands.map Prod.snd, rule ∈ c.rules → c.modifier = none := by
      intro c hc hrule
      obtain ⟨p, hp, rfl⟩ := List.mem_map.mp hc
      exact hplain p hp hrule
    rw [hregions, isEnabled, enabledAt_eq_false_iff]
    simp only [decides_flatMap_expand_of_plain hplain']
    constructor
    · rintro ⟨c, hc, haction⟩
      obtain ⟨p, hp, rfl⟩ := List.mem_map.mp hc.mem.1
      obtain ⟨hrule, hle, hlast⟩ := (decides_located_iff hp).mp hc
      refine ⟨p, hp, hplain p hp hrule, hrule, hle, ?_, haction⟩
      intro q hq _ hrule' hle'
      exact hlast q hq hrule' hle'
    · rintro ⟨p, hp, -, hrule, hle, hlast, haction⟩
      refine ⟨p.2, (decides_located_iff hp).mpr ⟨hrule, hle, ?_⟩, haction⟩
      intro q hq hrule' hle'
      exact hlast q hq (hplain q hq hrule') hrule' hle'
  · intro others hothers
    exact enabledAt_congr_of_filter_eq hothers

/-- The modifier is on a command for another rule. -/
theorem disabled_between_plain_commands :
    let file := SourceFile.ofContents ("// swiftlint:disable a b\n" ++
      "// swiftlint:enable:next b\nx // swiftlint:enable a\ny").toList none
    let commands := located file (tokens file.contents)
    (∀ p ∈ commands, "a" ∈ p.2.rules → p.2.modifier = none) ∧
      isEnabled (regions file (tokens file.contents)) file "a" 52 = false := by
  intro file commands
  have hcommands : commands = [(3, ⟨.disable, ["a", "b"], 1, 4, none⟩),
      (28, ⟨.enable, ["b"], 2, 4, some .next⟩), (57, ⟨.enable, ["a"], 3, 6, none⟩)] := by
    decide +kernel
  have hplain : ∀ p ∈ commands, "a" ∈ p.2.rules → p.2.modifier = none := by
    rw [hcommands]
    decide
  have hfirst : (3, ⟨.disable, ["a", "b"], 1, 4, none⟩) ∈ commands := by
    rw [hcommands]
    exact List.mem_cons_self
  have hlast : ∀ q ∈ commands, q.2.modifier = none → "a" ∈ q.2.rules → (q.1 : Int) ≤ 52 →
      q.1 ≤ 3 := by
    rw [hcommands]
    decide
  exact ⟨hplain, ((disabled_iff_last_plain_disables file "a" 52).1 hplain).mpr
    ⟨_, hfirst, rfl, by decide, by decide, hlast, rfl⟩⟩

end ParenLint.Command
