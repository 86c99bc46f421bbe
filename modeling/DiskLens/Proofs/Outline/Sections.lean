import DiskLens.Proofs.Outline.LogLines

/-!
# Sections of a run log

Chemistry and continuum radiative transfer are printed with a start and an end. An end counts while
its section is open, and this can be read off the lines alone, whatever else stands between them.

* `LogSection`: the two kinds of section, with the rules for their starts and ends.
* `LogSection.hook_logStep`, `LogSection.hook_logState`: the hook of a section after one line and
  after all lines.
* `mem_stages_logState`: the stages of a log.
* **`logOutline_sections`**: which lines have the start or the end of a section.
-/

namespace DiskLens

/-- A line has the marker of a rule. -/
def LogRule.MarksAt (rule : LogRule) (lines : List (List Char)) (i : Nat) : Prop :=
  HasLine lines i fun line => startsWith rule.marker line

/-- The stages of a run that are printed with a start and an end. -/
inductive LogSection
  | chemistry
  | continuum
deriving DecidableEq, Repr

namespace LogSection

/-- The rule for the start of a section. -/
def opener : LogSection → LogRule
  | chemistry => .openChemistry
  | continuum => .openContinuum

/-- The rule for its end. -/
def closer : LogSection → LogRule
  | chemistry => .closeChemistry
  | continuum => .closeContinuum

/-- The open start of a section. -/
def hook : LogSection → ScanState → Option Nat
  | chemistry => ScanState.chemistry
  | continuum => ScanState.continuum

/-- **A section is open at a line**: a line above starts it, and none in between ends it. -/
def OpenAt (sec : LogSection) (lines : List (List Char)) (i : Nat) : Prop :=
  ∃ j, OpenSince (startsWith sec.opener.marker ·) (startsWith sec.closer.marker ·) lines j i

theorem openAt_snoc_of_le {sec : LogSection} {lines : List (List Char)} {line : List Char}
    {i : Nat} (h : i ≤ lines.length) : sec.OpenAt (lines ++ [line]) i ↔ sec.OpenAt lines i :=
  exists_congr fun _ => openSince_snoc_of_le h

/-- One line on: the section starts, or was open and does not end. -/
theorem openAt_snoc (sec : LogSection) (lines : List (List Char)) (line : List Char) :
    sec.OpenAt (lines ++ [line]) (lines ++ [line]).length ↔
      startsWith sec.opener.marker line ∨
        sec.OpenAt lines lines.length ∧ ¬ startsWith sec.closer.marker line := by
  simp only [OpenAt, openSince_snoc, exists_or, exists_eq_left, exists_and_right]

/-! ## The hook of a section -/

theorem isMarked_opener (sec : LogSection) : sec.opener.isMarked := by cases sec <;> rfl

theorem isMarked_closer (sec : LogSection) : sec.closer.isMarked := by cases sec <;> rfl

/-- No line both starts and ends a section. -/
theorem not_marksAt_closer {sec : LogSection} {lines : List (List Char)} {i : Nat}
    (h : sec.opener.MarksAt lines i) : ¬ sec.closer.MarksAt lines i := by
  rintro ⟨line', hline', hend⟩
  obtain ⟨line, hline, hstart⟩ := h
  obtain rfl := Option.some.inj (hline.symm.trans hline')
  have hread := (LogRule.reads?_eq_some_iff sec.isMarked_opener).mpr ⟨hstart, rfl⟩
  have hsame := (LogRule.startsWith_marker_iff hread sec.isMarked_closer).mp hend
  cases sec <;> cases hsame

theorem ready_opener (sec : LogSection) (state : ScanState) : sec.opener.ready state := by
  cases sec <;> rfl

theorem ready_closer (sec : LogSection) (state : ScanState) :
    sec.closer.ready state = (sec.hook state).isSome := by
  cases sec <;> rfl

theorem hook_addSystem (sec : LogSection) (state : ScanState) (s : Symbol) :
    sec.hook (state.addSystem s) = sec.hook state := by
  rw [ScanState.addSystem]
  cases sec <;> split <;> rfl

theorem hook_fire (sec : LogSection) (rule : LogRule) (s : Symbol) (state : ScanState) :
    (sec.hook (rule.fire s state)).isSome ↔
      rule = sec.opener ∨ (sec.hook state).isSome ∧ rule ≠ sec.closer := by
  cases rule with
  | heatingSystem =>
    rw [LogRule.fire, hook_addSystem]
    cases sec <;> simp [opener, closer]
  | closeChemistry | closeContinuum | initPhase | initEnd | spectrum | openChemistry
  | openContinuum | lineTransfer =>
    cases sec <;> simp [LogRule.fire, ScanState.addStage, ScanState.addPhase, hook, opener, closer]

/-- **The hook of a section after one more line.** -/
theorem hook_logStep (sec : LogSection) (state : ScanState) (n : Nat) (line : List Char) :
    (sec.hook (logStep state n line)).isSome ↔
      startsWith sec.opener.marker line ∨
        (sec.hook state).isSome ∧ ¬ startsWith sec.closer.marker line := by
  obtain ⟨rule, title, -, hread, hstep⟩ | ⟨hnone, hstep⟩ := logStep_cases state n line
  · rw [hstep, hook_fire, LogRule.startsWith_marker_iff hread sec.isMarked_opener,
      LogRule.startsWith_marker_iff hread sec.isMarked_closer]
  · -- no rule applies, so nothing starts, and an end is printed only outside of the section
    have hopen := (LogRule.reads?_eq_none_iff sec.isMarked_opener).mp
      (hnone _ (sec.ready_opener state))
    rw [hstep]
    refine ⟨fun hhook => .inr ⟨hhook, ?_⟩, fun h => (h.resolve_left hopen).1⟩
    refine (LogRule.reads?_eq_none_iff sec.isMarked_closer).mp (hnone _ ?_)
    rw [ready_closer]
    exact hhook

/-- **The hook of a section tells whether it is open.** -/
theorem hook_logState (sec : LogSection) (lines : List (List Char)) :
    (sec.hook (logState lines)).isSome ↔ sec.OpenAt lines lines.length := by
  induction lines using List.reverseRecOn with
  | nil =>
    have hno : ¬ sec.OpenAt [] 0 := fun ⟨_, h, _⟩ => absurd h (Nat.not_lt_zero _)
    cases sec <;> simpa [logState, ScanState.start, hook] using hno
  | append_singleton lines line ih => rw [logState_snoc, hook_logStep, openAt_snoc, ih]

end LogSection

/-! ## The stages of a log -/

/-- A rule counts at a line: if it ends a section, the section is open there. -/
def LogRule.DueAt (rule : LogRule) (lines : List (List Char)) (i : Nat) : Prop :=
  ∀ sec : LogSection, rule = sec.closer → sec.OpenAt lines i

theorem LogRule.dueAt_snoc_of_le {rule : LogRule} {lines : List (List Char)} {line : List Char}
    {i : Nat} (h : i ≤ lines.length) : rule.DueAt (lines ++ [line]) i ↔ rule.DueAt lines i :=
  forall_congr' fun _ => imp_congr_right fun _ => LogSection.openAt_snoc_of_le h

namespace LogSection

theorem kind_opener (sec : LogSection) : sec.opener.kind = .stage := by cases sec <;> rfl

theorem kind_closer (sec : LogSection) : sec.closer.kind = .stage := by cases sec <;> rfl

theorem closer_injective {sec sec' : LogSection} (h : sec.closer = sec'.closer) : sec = sec' := by
  cases sec <;> cases sec' <;> first | rfl | cases h

theorem dueAt_opener (sec : LogSection) (lines : List (List Char)) (i : Nat) :
    sec.opener.DueAt lines i := by
  intro sec' h
  cases sec <;> cases sec' <;> cases h

theorem dueAt_closer (sec : LogSection) (lines : List (List Char)) (i : Nat) :
    sec.closer.DueAt lines i ↔ sec.OpenAt lines i := by
  refine ⟨fun h => h sec rfl, fun h sec' hsec => ?_⟩
  rw [← closer_injective hsec]
  exact h

end LogSection

namespace LogRule

theorem stages_fire (rule : LogRule) (s : Symbol) (state : ScanState) :
    (rule.fire s state).stages =
      if rule.kind = .stage then state.stages ++ [s] else state.stages := by
  cases rule with
  | heatingSystem =>
    rw [fire, ScanState.addSystem]
    split <;> rfl
  | closeChemistry | closeContinuum | initPhase | initEnd | spectrum | openChemistry
  | openContinuum | lineTransfer => rfl

theorem isMarked_of_kind {rule : LogRule} (h : rule.kind = .stage) : rule.isMarked := by
  cases rule <;> first | rfl | cases h

theorem ready_logState {rule : LogRule} (h : rule.kind = .stage) (lines : List (List Char)) :
    rule.ready (logState lines) ↔ rule.DueAt lines lines.length := by
  by_cases hclose : ∃ sec : LogSection, rule = sec.closer
  · obtain ⟨sec, rfl⟩ := hclose
    rw [LogSection.ready_closer, sec.hook_logState]
    exact (sec.dueAt_closer lines lines.length).symm
  · refine iff_of_true ?_ fun sec hsec => absurd ⟨sec, hsec⟩ hclose
    cases rule with
    | closeChemistry => exact absurd ⟨.chemistry, rfl⟩ hclose
    | closeContinuum => exact absurd ⟨.continuum, rfl⟩ hclose
    | heatingSystem => cases h
    | initPhase | initEnd | spectrum | openChemistry | openContinuum | lineTransfer => rfl

end LogRule

/-- A line adds the stage of its rule, if the rule counts. -/
theorem mem_stages_logStep {s : Symbol} (state : ScanState) (n : Nat) (line : List Char) :
    s ∈ (logStep state n line).stages ↔ s ∈ state.stages ∨ ∃ rule : LogRule, rule.kind = .stage ∧
      rule.ready state ∧ startsWith rule.marker line ∧ s = rule.symbol rule.heading n line := by
  obtain ⟨rule, title, hready, hread, hstep⟩ | ⟨hnone, hstep⟩ := logStep_cases state n line
  · rw [hstep, LogRule.stages_fire]
    constructor
    · intro hs
      split at hs
      next hkind =>
        obtain ⟨hstart, rfl⟩ :=
          (LogRule.reads?_eq_some_iff (LogRule.isMarked_of_kind hkind)).mp hread
        obtain hs | hs := List.mem_append.mp hs
        · exact .inl hs
        · exact .inr ⟨rule, hkind, hready, hstart, List.mem_singleton.mp hs⟩
      next => exact .inl hs
    · rintro (hs | ⟨rule', hkind, -, hstart, rfl⟩)
      · split
        next => exact List.mem_append_left _ hs
        next => exact hs
      · have hmarked := LogRule.isMarked_of_kind hkind
        obtain rfl := (LogRule.startsWith_marker_iff hread hmarked).mp hstart
        rw [if_pos hkind, ((LogRule.reads?_eq_some_iff hmarked).mp hread).2]
        exact List.mem_append_right _ (List.mem_singleton_self _)
  · rw [hstep]
    refine ⟨.inl, fun h => h.resolve_right ?_⟩
    rintro ⟨rule, hkind, hready, hstart, -⟩
    have hmarked := LogRule.isMarked_of_kind hkind
    exact (LogRule.reads?_eq_none_iff hmarked).mp (hnone rule hready) hstart

/-- **The stages of a log.** -/
theorem mem_stages_logState {s : Symbol} (lines : List (List Char)) :
    s ∈ (logState lines).stages ↔ ∃ (rule : LogRule) (i : Nat), rule.kind = .stage ∧
      rule.DueAt lines i ∧
        HasLine lines i fun line =>
          startsWith rule.marker line ∧ s = rule.symbol rule.heading i line := by
  induction lines using List.reverseRecOn with
  | nil => simp [logState, ScanState.start, HasLine]
  | append_singleton lines line ih =>
    rw [logState_snoc, mem_stages_logStep, ih]
    constructor
    · rintro (⟨rule, i, hkind, hdue, hline⟩ | ⟨rule, hkind, hready, hline⟩)
      · have hi := Nat.le_of_lt hline.lt_length
        exact ⟨rule, i, hkind, (LogRule.dueAt_snoc_of_le hi).mpr hdue,
          hasLine_snoc.mpr (.inl hline)⟩
      · have hdue := (LogRule.ready_logState hkind lines).mp hready
        exact ⟨rule, lines.length, hkind, (LogRule.dueAt_snoc_of_le (Nat.le_refl _)).mpr hdue,
          hasLine_snoc_length.mpr hline⟩
    · rintro ⟨rule, i, hkind, hdue, hline⟩
      obtain hline | ⟨rfl, hline⟩ := hasLine_snoc.mp hline
      · have hi := Nat.le_of_lt hline.lt_length
        exact .inl ⟨rule, i, hkind, (LogRule.dueAt_snoc_of_le hi).mp hdue, hline⟩
      · have hdue := (LogRule.dueAt_snoc_of_le (Nat.le_refl _)).mp hdue
        exact .inr ⟨rule, hkind, (LogRule.ready_logState hkind lines).mpr hdue, hline⟩

/-! ## Starts and ends in an outline -/

theorem LogRule.heading_injective {rule rule' : LogRule} (h : rule.kind = .stage)
    (heq : rule.heading = rule'.heading) : rule = rule' := by
  cases rule <;> cases rule' <;>
    first | rfl | exact absurd heq (by decide) | exact absurd h (by decide)

theorem LogRule.heading_ne_root (rule : LogRule) (phases : List Symbol) :
    (ScanState.root phases).title ≠ rule.heading := by
  cases rule <;> exact of_decide_eq_false rfl

/-- The stages with the heading of a rule are those that the rule makes. -/
theorem hasSymbol_logState {rule : LogRule} (h : rule.kind = .stage) (lines : List (List Char))
    (i : Nat) : HasSymbol (logState lines).symbols rule.heading i ↔
      rule.MarksAt lines i ∧ rule.DueAt lines i := by
  constructor
  · rintro ⟨s, hs, htitle, hline⟩
    obtain rfl | hs := List.mem_cons.mp hs
    · exact absurd htitle (rule.heading_ne_root _)
    · obtain ⟨rule', i', hkind, hdue, line, hi', hstart, rfl⟩ := (mem_stages_logState lines).mp hs
      obtain rfl := LogRule.heading_injective hkind htitle
      obtain rfl : i' = i := hline
      exact ⟨⟨line, hi', hstart⟩, hdue⟩
  · rintro ⟨⟨line, hi, hstart⟩, hdue⟩
    refine ⟨rule.symbol rule.heading i line, List.mem_cons_of_mem _ ?_, rfl, rfl⟩
    exact (mem_stages_logState lines).mpr ⟨rule, i, h, hdue, line, hi, hstart, rfl⟩

/-- **The sections of a log that was read to its end.** -/
theorem logOutline_sections (text : String) (token : Option CancelToken)
    (hlast : CancelToken.Outlasts token (splitLines text.toList).length) (sec : LogSection) :
    let lines := splitLines text.toList
    let starts := HasSymbol (logOutline text token) sec.opener.heading
    let ends := HasSymbol (logOutline text token) sec.closer.heading
    (∀ i, ends i ↔ sec.closer.MarksAt lines i ∧
      ∃ j < i, sec.opener.MarksAt lines j ∧ ∀ k, j < k → k < i → ¬ sec.closer.MarksAt lines k) ∧
    (∀ i, starts i ↔ sec.opener.MarksAt lines i) ∧
    (∀ i, ends i → ∃ j < i, starts j ∧ ∀ k, j < k → k < i → ¬ ends k) ∧
    ∀ i i', i < i' → ends i → ends i' → ∃ j, i < j ∧ j < i' ∧ starts j := by
  intro lines starts ends
  have houtline : logOutline text token = (logState lines).symbols :=
    (logOutline_cases text token).1 hlast
  have hends : ∀ i, ends i ↔ sec.closer.MarksAt lines i ∧ sec.OpenAt lines i := fun i => by
    rw [← sec.dueAt_closer, ← hasSymbol_logState sec.kind_closer, ← houtline]
  have hstarts : ∀ i, starts i ↔ sec.opener.MarksAt lines i := fun i => by
    have hiff := hasSymbol_logState sec.kind_opener lines i
    rwa [and_iff_left (sec.dueAt_opener lines i), ← houtline] at hiff
  refine ⟨hends, hstarts, fun i hi => ?_, fun i i' hlt hi hi' => ?_⟩
  · obtain ⟨-, j, hji, hj, hkeep⟩ := (hends i).mp hi
    exact ⟨j, hji, (hstarts j).mpr hj, fun k hjk hki hk => hkeep k hjk hki ((hends k).mp hk).1⟩
  · -- the section that ends at `i'` was started after `i`, which would have ended it
    obtain ⟨-, j, hji', hj, hkeep⟩ := (hends i').mp hi'
    have hend := ((hends i).mp hi).1
    refine ⟨j, ?_, hji', (hstarts j).mpr hj⟩
    obtain hlt' | rfl | hlt' := Nat.lt_trichotomy i j
    · exact hlt'
    · exact absurd hend (LogSection.not_marksAt_closer hj)
    · exact absurd hend (hkeep i hlt' hlt)

/-- A second start takes the place of the first, and an end that follows an end is none. -/
theorem logOutline_sections_repeated :
    let text := " CHEMISTRY AND ENERGY BALANCE ...\n CHEMISTRY AND ENERGY BALANCE ...\n" ++
      " CHEMISTRY AND ENERGY BALANCE DONE\n CHEMISTRY AND ENERGY BALANCE DONE"
    let outline := logOutline text none
    CancelToken.Outlasts none (splitLines text.toList).length ∧
      HasSymbol outline "CHEMISTRY END" 2 ∧ ¬ HasSymbol outline "CHEMISTRY END" 3 := by
  intro text outline
  have hlines : splitLines text.toList =
      [LogRule.openChemistry.marker.toList, LogRule.openChemistry.marker.toList,
        LogRule.closeChemistry.marker.toList, LogRule.closeChemistry.marker.toList] := by
    decide +kernel
  have hlast := CancelToken.outlasts_none (splitLines text.toList).length
  obtain ⟨hends, -, -, hbetween⟩ := logOutline_sections text none hlast .chemistry
  rw [hlines] at hends
  have hend : HasSymbol outline "CHEMISTRY END" 2 := by
    refine (hends 2).mpr ⟨⟨_, rfl, by decide⟩, 1, by decide, ⟨_, rfl, by decide⟩, fun k h h' => ?_⟩
    omega
  refine ⟨hlast, hend, fun hend' => ?_⟩
  obtain ⟨j, hlow, hhigh, -⟩ := hbetween 2 3 (by decide) hend hend'
  omega

end DiskLens
