import DiskLens.Proofs.Outline.LogRules
import Mathlib.Data.List.Forall2

/-!
# The grammar of phase lines

A phase line has at most one space, the token of the phase, and a colon or a space. The token is
`INIT_` with more letters, digits or underscores, in any case. Neither mark can go on with a token,
so a line names one token at most and names all of it. Only one spelling of one token opens the
heating and cooling phase.

* `IsNameLetter`, `Spells`: the letters of a token, and how they may be written.
* `foldCase_eq_iff`, `isPhaseChar_iff`, `map_foldCase_eq_iff`: a letter and its lower case.
* **`PhaseLine`**: the parts of a phase line; `PhaseLine.text`: the line they make.
* `PhaseLine.initPhase?_text`, **`PhaseLine.text_injective`**: a line has one token and one reading.
* `logStep_of_initPhase?`, `heating_logStep_of_none`: the hook after any line.
* **`initPhase?_eq_some_iff`**: the lines that name a phase, in how many ways, and what they open.
-/

namespace DiskLens

/-! ## Letters in any case -/

/-- The letters, digits and underscore that a token is made of, in lower case. -/
def IsNameLetter (d : Char) : Prop := ('a' ≤ d ∧ d ≤ 'z') ∨ ('0' ≤ d ∧ d ≤ '9') ∨ d = '_'

/-- The letters beyond ASCII that have a letter of ASCII as another case: the dotted capital and the
dotless small i, the long s, and the Kelvin sign. -/
def strangeLetters : List (Char × Char) :=
  [('\u0130', 'i'), ('\u0131', 'i'), ('\u017F', 's'), ('\u212A', 'k')]

/-- **The character `c` is a way to write the lower-case letter `d`.** -/
def Spells (c d : Char) : Prop := c.toLower = d ∨ (c, d) ∈ strangeLetters

instance (d : Char) : Decidable (IsNameLetter d) := inferInstanceAs (Decidable (_ ∨ _))

instance (c d : Char) : Decidable (Spells c d) := inferInstanceAs (Decidable (_ ∨ _))

theorem foldCase_of_upper {c : Char} (h : 'A' ≤ c ∧ c ≤ 'Z') : foldCase c = c.toLower := by
  have hrange : 65 ≤ c.toNat ∧ c.toNat ≤ 90 := h
  have hletters : ∀ k < 26, foldCase (Char.ofNat (65 + k)) = (Char.ofNat (65 + k)).toLower := by
    decide
  have hc := hletters (c.toNat - 65) (by omega)
  rwa [Nat.add_sub_cancel' hrange.1, Char.ofNat_toNat] at hc

theorem foldCase_of_strange : ∀ p ∈ strangeLetters, foldCase p.1 = p.2 := by decide

theorem foldCase_of_not_strange {c : Char} (h : ∀ d, (c, d) ∉ strangeLetters) :
    foldCase c = c.toLower := by
  by_cases hupper : 'A' ≤ c ∧ c ≤ 'Z'
  · exact foldCase_of_upper hupper
  · have hne : ∀ p ∈ strangeLetters, c.toNat ≠ p.1.toNat := by
      intro p hp heq
      exact h p.2 (Char.toNat_inj.mp heq ▸ hp)
    obtain ⟨hdotted, hdotless, hlong, hkelvin⟩ :
        c.toNat ≠ 0x130 ∧ c.toNat ≠ 0x131 ∧ c.toNat ≠ 0x17F ∧ c.toNat ≠ 0x212A := by
      simpa [strangeLetters] using hne
    have hlower : c.toLower = c := dif_neg hupper
    rw [hlower, foldCase, if_neg (by simpa using hupper), if_neg (by simp [hdotted, hdotless]),
      if_neg hlong, if_neg hkelvin]

/-- **A character has the lower case `d` if and only if it is a way to write `d`.** -/
theorem foldCase_eq_iff {c d : Char} (hd : IsNameLetter d) : foldCase c = d ↔ Spells c d := by
  by_cases hstrange : ∃ e, (c, e) ∈ strangeLetters
  · obtain ⟨e, he⟩ := hstrange
    rw [foldCase_of_strange _ he]
    constructor
    · rintro rfl
      exact .inr he
    · rintro (hlower | hother)
      · -- a strange letter has no lower case in ASCII
        have hfar : ∀ p ∈ strangeLetters, ¬ IsNameLetter p.1.toLower := by decide
        exact absurd (hlower ▸ hd) (hfar _ he)
      · exact (foldCase_of_strange _ he).symm.trans (foldCase_of_strange _ hother)
  · have hnot := not_exists.mp hstrange
    rw [foldCase_of_not_strange hnot, Spells, or_iff_left (hnot d)]

theorem isPhaseChar_iff {c : Char} : isPhaseChar c ↔ ∃ d, IsNameLetter d ∧ Spells c d := by
  have hletter : isPhaseChar c ↔ IsNameLetter (foldCase c) := by
    simp [isPhaseChar, IsNameLetter, or_assoc]
  rw [hletter]
  constructor
  · intro h
    exact ⟨foldCase c, h, (foldCase_eq_iff h).mp rfl⟩
  · rintro ⟨d, hd, hspells⟩
    rwa [(foldCase_eq_iff hd).mpr hspells]

/-- A word of such letters and a text that is written for it, letter by letter. -/
theorem map_foldCase_eq_iff {s word : List Char} (hword : ∀ d ∈ word, IsNameLetter d) :
    s.map foldCase = word ↔ List.Forall₂ Spells s word := by
  induction word generalizing s with
  | nil => simp
  | cons d word ih =>
    rw [List.forall_mem_cons] at hword
    rw [List.forall₂_cons_right_iff, List.map_eq_cons_iff]
    constructor
    · rintro ⟨c, more, rfl, hc, hmore⟩
      exact ⟨c, more, (foldCase_eq_iff hword.1).mp hc, (ih hword.2).mp hmore, rfl⟩
    · rintro ⟨c, more, hc, hmore, rfl⟩
      exact ⟨c, more, rfl, (foldCase_eq_iff hword.1).mpr hc, (ih hword.2).mpr hmore⟩

theorem map_foldCase_eq_phaseStem {s : List Char} :
    s.map foldCase = phaseStem ↔ List.Forall₂ Spells s phaseStem := by
  apply map_foldCase_eq_iff
  simp [phaseStem, IsNameLetter]

/-! ## Lines that name a phase -/

/-- The space that may start a line. -/
def spaceIf (spaced : Bool) : List Char := if spaced then [' '] else []

theorem exists_spaceIf (line : List Char) : ∃ spaced, line = spaceIf spaced ++ dropSpace line := by
  unfold dropSpace
  split
  next cs => exact ⟨true, rfl⟩
  next => exact ⟨false, rfl⟩

theorem dropSpace_spaceIf {s : List Char} (hs : s.head? ≠ some ' ') (spaced : Bool) :
    dropSpace (spaceIf spaced ++ s) = s := by
  cases spaced with
  | true => rfl
  | false =>
    unfold dropSpace
    split
    next cs hcs => exact absurd (congrArg List.head? hcs) hs
    next => rfl

/-- **The parts of a phase line**, and what they have to be. -/
structure PhaseLine where
  spaced : Bool
  stem : List Char
  name : List Char
  mark : Char
  rest : List Char
  stem_spells : List.Forall₂ Spells stem phaseStem
  name_ne_nil : name ≠ []
  name_spells : ∀ c ∈ name, ∃ d, IsNameLetter d ∧ Spells c d
  mark_eq : mark = ':' ∨ mark = ' '

namespace PhaseLine

/-- **The token of the phase**, as the line spells it. -/
def token (l : PhaseLine) : List Char := l.stem ++ l.name

/-- **The line that is made of some parts.** -/
def text (l : PhaseLine) : List Char := spaceIf l.spaced ++ (l.token ++ l.mark :: l.rest)

variable (l : PhaseLine)

theorem length_stem : l.stem.length = 5 := l.stem_spells.length_eq

theorem take_token : l.token.take 5 = l.stem := by
  rw [token, ← l.length_stem, List.take_left]

theorem drop_token : l.token.drop 5 = l.name := by
  rw [token, ← l.length_stem, List.drop_left]

theorem dropSpace_text : dropSpace l.text = l.token ++ l.mark :: l.rest := by
  apply dropSpace_spaceIf
  intro hspace
  -- the first character is written for an i
  have hfirst : l.stem.head? = some ' ' := by
    rwa [token, List.append_assoc, List.head?_append_of_ne_nil] at hspace
    exact List.ne_nil_of_length_eq_add_one l.length_stem
  obtain ⟨more, hmore⟩ := List.head?_eq_some_iff.mp hfirst
  have hstem := map_foldCase_eq_phaseStem.mpr l.stem_spells
  rw [hmore] at hstem
  cases hstem

theorem not_isPhaseChar_mark : ¬ isPhaseChar l.mark := by
  rcases l.mark_eq with h | h <;> rw [h] <;> decide

theorem initPhase?_text : initPhase? l.text = some l.token := by
  have hbody : dropSpace l.text = l.stem ++ (l.name ++ l.mark :: l.rest) := by
    rw [dropSpace_text, token, List.append_assoc]
  have hname : ∀ c ∈ l.name, isPhaseChar c := fun c hc => isPhaseChar_iff.mpr (l.name_spells c hc)
  have htake : (l.name ++ l.mark :: l.rest).takeWhile isPhaseChar = l.name := by
    rw [List.takeWhile_append_of_pos hname, List.takeWhile_cons_of_neg l.not_isPhaseChar_mark,
      List.append_nil]
  have hdrop : (l.name ++ l.mark :: l.rest).dropWhile isPhaseChar = l.mark :: l.rest := by
    rw [List.dropWhile_append_of_pos hname, List.dropWhile_cons_of_neg l.not_isPhaseChar_mark]
  rw [initPhase?, hbody, ← l.length_stem, List.take_left, List.drop_left, htake, hdrop]
  exact if_pos ⟨map_foldCase_eq_phaseStem.mpr l.stem_spells, l.name_ne_nil, l.mark_eq⟩

theorem exists_of_initPhase? {line token : List Char} (h : initPhase? line = some token) :
    ∃ l : PhaseLine, l.text = line ∧ l.token = token := by
  obtain ⟨stem, name, mark, rest, hbody, hstem, hne, hname, hmark, rfl⟩ := initPhase?_parts h
  obtain ⟨spaced, hline⟩ := exists_spaceIf line
  refine ⟨⟨spaced, stem, name, mark, rest, map_foldCase_eq_phaseStem.mp hstem, hne,
    fun c hc => isPhaseChar_iff.mp (hname c hc), hmark⟩, ?_, rfl⟩
  rw [hline, hbody, text, token, List.append_assoc]

/-- **A line is a phase line in one way at most.** -/
theorem text_injective : Function.Injective text := by
  intro l l' heq
  have htoken : l.token = l'.token := by
    apply Option.some.inj
    rw [← initPhase?_text, heq, initPhase?_text]
  have hstem : l.stem = l'.stem := by rw [← take_token, htoken, take_token]
  have hname : l.name = l'.name := by rw [← drop_token, htoken, drop_token]
  have hbody : l.token ++ l.mark :: l.rest = l'.token ++ l'.mark :: l'.rest := by
    rw [← dropSpace_text, heq, dropSpace_text]
  obtain ⟨hmark, hrest⟩ : l.mark = l'.mark ∧ l.rest = l'.rest := by
    simpa [htoken] using hbody
  have hspaced : l.spaced = l'.spaced := by
    have hspace : spaceIf l.spaced = spaceIf l'.spaced := by simpa [text, hbody] using heq
    revert hspace
    cases l.spaced <;> cases l'.spaced <;> simp [spaceIf]
  cases l
  cases l'
  simp only at hspaced hstem hname hmark hrest
  subst hspaced hstem hname hmark hrest
  rfl

end PhaseLine

/-! ## The hook -/

theorem LogRule.heating_fire_of_ne {rule : LogRule} (h : rule ≠ initPhase) (s : Symbol)
    (state : ScanState) : (rule.fire s state).heating = state.heating := by
  cases rule with
  | initPhase => exact absurd rfl h
  | heatingSystem =>
    rw [fire, ScanState.addSystem]
    split <;> rfl
  | closeChemistry | closeContinuum | initEnd | spectrum | openChemistry | openContinuum
  | lineTransfer => rfl

theorem logStep_of_initPhase? {line token : List Char} (h : initPhase? line = some token)
    (state : ScanState) (n : Nat) :
    logStep state n line =
      { state with
        phases := state.phases ++ [LogRule.initPhase.symbol (String.ofList token) n line]
        heating := if token = "INIT_HEATCOOL".toList then some state.phases.length else none } := by
  have hread : LogRule.initPhase.reads? line = some (String.ofList token) :=
    Option.map_eq_some_iff.mpr ⟨token, h, rfl⟩
  have htitle : String.ofList token = heatingPhaseTitle ↔ token = "INIT_HEATCOOL".toList := by
    rw [← String.ofList_toList (s := heatingPhaseTitle), String.ofList_inj]
    rfl
  rw [logStep_of_reads? rfl hread, LogRule.fire, ScanState.addPhase]
  simp only [LogRule.symbol, Symbol.leaf, htitle]

/-- A line that names no phase leaves the hook as it is. -/
theorem heating_logStep_of_none {line : List Char} (h : initPhase? line = none) (state : ScanState)
    (n : Nat) : (logStep state n line).heating = state.heating := by
  obtain ⟨rule, title, -, hread, hstep⟩ | ⟨-, hstep⟩ := logStep_cases state n line
  · rw [hstep]
    apply LogRule.heating_fire_of_ne
    rintro rfl
    rw [LogRule.reads?, h] at hread
    cases hread
  · rw [hstep]

/-- **The lines that name a phase are the phase lines**, each in one way only. The phase is titled
by the token as the line spells it, and is open for heating and cooling systems if and only if that
spelling is `INIT_HEATCOOL`, letter for letter. No other line opens or closes it. -/
theorem initPhase?_eq_some_iff :
    (∀ line token, initPhase? line = some token ↔
      ∃ l : PhaseLine, l.text = line ∧ l.token = token) ∧
    (∀ l l' : PhaseLine, l.text = l'.text → l = l') ∧
    (∀ (l : PhaseLine) (state : ScanState) (n : Nat),
      let next := logStep state n l.text
      next.phases = state.phases ++ [LogRule.initPhase.symbol (String.ofList l.token) n l.text] ∧
        ∀ k, next.heating = some k ↔
          l.token = "INIT_HEATCOOL".toList ∧ k = state.phases.length) ∧
    ∀ line, (¬ ∃ l : PhaseLine, l.text = line) → ∀ (state : ScanState) (n : Nat),
      (logStep state n line).heating = state.heating := by
  refine ⟨fun line token => ⟨PhaseLine.exists_of_initPhase?, ?_⟩,
    fun l l' heq => PhaseLine.text_injective heq, fun l state n => ?_, fun line hno state n => ?_⟩
  · rintro ⟨l, rfl, rfl⟩
    exact l.initPhase?_text
  · have hstep := logStep_of_initPhase? l.initPhase?_text state n
    refine ⟨congrArg ScanState.phases hstep, fun k => ?_⟩
    rw [congrArg ScanState.heating hstep, Option.ite_none_right_eq_some, Option.some.injEq,
      eq_comm (a := k)]
  · apply heating_logStep_of_none
    rw [Option.eq_none_iff_forall_ne_some]
    intro token htoken
    obtain ⟨l, hl, -⟩ := PhaseLine.exists_of_initPhase? htoken
    exact hno ⟨l, hl⟩

/-- A phase that is spelled with a dotless and a dotted i opens nothing, and a dash ends no
token. -/
theorem initPhase?_of_strange_letters :
    let line := " \u0131N\u0130T_HEATCOOL: x".toList
    let other := " INIT_HEATCOOL-x".toList
    let l : PhaseLine := ⟨true, "\u0131N\u0130T_".toList, "HEATCOOL".toList, ':', " x".toList,
      by decide, by decide,
      fun c hc => isPhaseChar_iff.mp (List.all_eq_true.mp (by decide) c hc), .inl rfl⟩
    l.text = line ∧ initPhase? line = some "\u0131N\u0130T_HEATCOOL".toList ∧
      (∀ l' : PhaseLine, l'.text = line → l' = l) ∧
      (∀ k, (logStep .start 0 line).heating ≠ some k) ∧
      (¬ ∃ l' : PhaseLine, l'.text = other) ∧ (logStep .start 0 other).heating = none := by
  intro line other l
  obtain ⟨hiff, hunique, hhook, hkeep⟩ := initPhase?_eq_some_iff
  have htext : l.text = line := by decide
  have hno : ¬ ∃ l' : PhaseLine, l'.text = other := by
    rintro ⟨l', hl'⟩
    have hother : initPhase? other = none := by decide
    rw [(hiff other l'.token).mpr ⟨l', hl', rfl⟩] at hother
    cases hother
  refine ⟨htext, (hiff _ _).mpr ⟨l, htext, by decide⟩,
    fun l' hl' => hunique l' l (hl'.trans htext.symm), fun k hk => ?_, hno,
    hkeep other hno .start 0⟩
  rw [← htext] at hk
  exact absurd (((hhook l .start 0).2 k).mp hk).1 (by decide)

end DiskLens
