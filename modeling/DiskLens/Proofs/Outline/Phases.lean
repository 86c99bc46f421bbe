import DiskLens.Proofs.Outline.LogLines

/-!
# Phases of the initialisation

The root of an outline has one phase for each line that names one, and an end for each line with the
total of the initialisation. Systems go below the heating and cooling phase that was named last, as
long as no other phase was named after it.

* `phaseTitle?`, `phaseLines`: the phases of a log, read off its lines.
* `HeatingSince`, `SystemBelow`: the same for the open phase and for the systems below it.
* `PhaseTold`: what is known of one phase; `.keep`, `.close`, `.addSystem`: one more line.
* `ScanState.PhasesTold`: what is known of all; `phasesTold_logState`: after all lines.
* **`logOutline_phases`**: the children of the root and their children.
-/

namespace DiskLens

/-! ## Phases and systems, read off the lines -/

/-- The title of the phase on a line: the token, or the end of the initialisation. -/
def phaseTitle? (line : List Char) : Option String :=
  match initPhase? line with
  | some token => some (String.ofList token)
  | none => if startsWith LogRule.initEnd.marker line then some "INIT END" else none

theorem phaseTitle?_of_initPhase {line : List Char} {token : String}
    (h : LogRule.initPhase.reads? line = some token) : phaseTitle? line = some token := by
  obtain ⟨chars, hchars, rfl⟩ := Option.map_eq_some_iff.mp h
  rw [phaseTitle?, hchars]

theorem phaseTitle?_of_none {line : List Char} (h : LogRule.initPhase.reads? line = none) :
    phaseTitle? line = LogRule.initEnd.reads? line := by
  rw [phaseTitle?, Option.map_eq_none_iff.mp h]
  rfl

/-- The phases of a log, with the numbers of their lines. -/
def phaseLines (lines : List (List Char)) : List (String × Nat) :=
  lines.zipIdx.filterMap fun p => (phaseTitle? p.1).map (·, p.2)

theorem phaseLines_snoc (lines : List (List Char)) (line : List Char) :
    phaseLines (lines ++ [line]) =
      phaseLines lines ++ ((phaseTitle? line).map (·, lines.length)).toList := by
  rw [phaseLines, List.zipIdx_append, List.filterMap_append, phaseLines]
  cases h : phaseTitle? line <;> simp [h]

theorem mem_phaseLines {lines : List (List Char)} {title : String} {p : Nat} :
    (title, p) ∈ phaseLines lines ↔ HasLine lines p fun line => phaseTitle? line = some title := by
  simp only [phaseLines, List.mem_filterMap, Prod.exists, List.mk_mem_zipIdx_iff_getElem?,
    Option.map_eq_some_iff, Prod.mk.injEq, HasLine]
  constructor
  · rintro ⟨line, _, hline, _, htitle, rfl, rfl⟩
    exact ⟨line, hline, htitle⟩
  · rintro ⟨line, hline, htitle⟩
    exact ⟨line, p, hline, title, htitle, rfl, rfl⟩

/-- **The heating and cooling phase on line `p` is open at line `q`**: no phase is named between
them. -/
def HeatingSince (lines : List (List Char)) (p q : Nat) : Prop :=
  OpenSince (LogRule.initPhase.reads? · = some heatingPhaseTitle)
    (fun line => (LogRule.initPhase.reads? line).isSome) lines p q

/-- **A system on line `q` belongs below the phase on line `p`.** -/
def SystemBelow (lines : List (List Char)) (p : Nat) (name : String) (q : Nat) : Prop :=
  HeatingSince lines p q ∧ HasLine lines q (LogRule.heatingSystem.reads? · = some name)

section Snoc

variable {lines : List (List Char)} {line : List Char} {p q : Nat} {name : String}

theorem heatingSince_snoc :
    HeatingSince (lines ++ [line]) p (lines ++ [line]).length ↔
      p = lines.length ∧ LogRule.initPhase.reads? line = some heatingPhaseTitle ∨
        HeatingSince lines p lines.length ∧ LogRule.initPhase.reads? line = none := by
  rw [HeatingSince, openSince_snoc, Option.not_isSome_iff_eq_none]
  rfl

/-- A line adds a system to the phase that is open there. -/
theorem systemBelow_snoc :
    SystemBelow (lines ++ [line]) p name q ↔ SystemBelow lines p name q ∨
      q = lines.length ∧ HeatingSince lines p q ∧
        LogRule.heatingSystem.reads? line = some name := by
  rw [SystemBelow, hasLine_snoc, and_or_left, SystemBelow]
  refine or_congr ?_ ?_
  · refine and_congr_left fun hline => openSince_snoc_of_le (Nat.le_of_lt hline.lt_length)
  · rw [and_left_comm]
    refine and_congr_right ?_
    rintro rfl
    exact and_congr_left fun _ => openSince_snoc_of_le (Nat.le_refl _)

end Snoc

/-! ## One phase -/

/-- **What the lines tell of a phase**: whether it is open, and the systems below it. -/
structure PhaseTold (lines : List (List Char)) (phase : Symbol) (isOpen : Prop) : Prop where
  line_lt : phase.range.start.line < lines.length
  open_iff : isOpen ↔ HeatingSince lines phase.range.start.line lines.length
  children_iff : ∀ name q, HasSymbol phase.children name q ↔
    SystemBelow lines phase.range.start.line name q

namespace PhaseTold

variable {lines : List (List Char)} {line : List Char} {phase : Symbol} {isOpen isOpen' : Prop}

theorem congr (h : PhaseTold lines phase isOpen) (heq : isOpen ↔ isOpen') :
    PhaseTold lines phase isOpen' :=
  ⟨h.line_lt, heq.symm.trans h.open_iff, h.children_iff⟩

theorem line_lt_snoc (h : PhaseTold lines phase isOpen) :
    phase.range.start.line < (lines ++ [line]).length :=
  Nat.lt_of_lt_of_le h.line_lt (by simp)

/-- A phase that was just named is open if it is the heating and cooling phase. -/
theorem new (rule : LogRule) (title : String) (lines : List (List Char)) (line : List Char) :
    PhaseTold (lines ++ [line]) (rule.symbol title lines.length line)
      (LogRule.initPhase.reads? line = some heatingPhaseTitle) := by
  have hself : ¬ HeatingSince lines lines.length lines.length := fun h => Nat.lt_irrefl _ h.1
  have hline : (rule.symbol title lines.length line).range.start.line = lines.length := rfl
  refine ⟨by simp [hline], ?_, fun name q => ?_⟩
  · rw [hline, heatingSince_snoc]
    simp [hself]
  · refine iff_of_false (fun ⟨s, hs, _⟩ => nomatch hs) ?_
    rw [hline, systemBelow_snoc]
    rintro (⟨hsince, hname⟩ | ⟨rfl, hsince, -⟩)
    · exact Nat.lt_asymm hsince.1 hname.lt_length
    · exact hself hsince

/-- A phase stays as it is on a line that names no phase and no system for it. -/
theorem keep (h : PhaseTold lines phase isOpen) (hphase : LogRule.initPhase.reads? line = none)
    (hsystem : isOpen → LogRule.heatingSystem.reads? line = none) :
    PhaseTold (lines ++ [line]) phase isOpen := by
  refine ⟨h.line_lt_snoc, ?_, fun name q => ?_⟩
  · rw [heatingSince_snoc, h.open_iff]
    simp [hphase]
  · rw [h.children_iff, systemBelow_snoc]
    refine (or_iff_left ?_).symm
    rintro ⟨rfl, hopen, hname⟩
    rw [hsystem (h.open_iff.mpr hopen)] at hname
    cases hname

/-- The next phase closes it. -/
theorem close (h : PhaseTold lines phase isOpen) {token : String}
    (hphase : LogRule.initPhase.reads? line = some token) :
    PhaseTold (lines ++ [line]) phase False := by
  refine ⟨h.line_lt_snoc, ?_, fun name q => ?_⟩
  · rw [heatingSince_snoc]
    simp [hphase, Nat.ne_of_lt h.line_lt]
  · rw [h.children_iff, systemBelow_snoc]
    refine (or_iff_left ?_).symm
    rintro ⟨rfl, -, hname⟩
    cases LogRule.reads?_unique hphase hname

/-- A system goes below the open phase. -/
theorem addSystem (h : PhaseTold lines phase isOpen) (hopen : isOpen) {name : String}
    (hsystem : LogRule.heatingSystem.reads? line = some name) :
    PhaseTold (lines ++ [line])
      (phase.addChild (LogRule.heatingSystem.symbol name lines.length line)) isOpen := by
  have hphase : LogRule.initPhase.reads? line = none := LogRule.reads?_of_ne hsystem (by decide)
  have hsince := h.open_iff.mp hopen
  refine ⟨h.line_lt_snoc, ?_, fun name' q => ?_⟩
  · refine h.open_iff.trans (Iff.symm ?_)
    rw [heatingSince_snoc]
    simp [hphase, Symbol.addChild]
  · refine Iff.trans ?_ systemBelow_snoc.symm
    rw [Symbol.addChild, hasSymbol_snoc, h.children_iff]
    refine or_congr_right ⟨?_, ?_⟩
    · rintro ⟨rfl, rfl⟩
      exact ⟨rfl, hsince, hsystem⟩
    · rintro ⟨rfl, -, hname⟩
      exact ⟨Option.some.inj (hsystem.symm.trans hname), rfl⟩

end PhaseTold

/-! ## All phases -/

/-- The title and the line of a symbol. -/
def Symbol.head (s : Symbol) : String × Nat := (s.title, s.range.start.line)

theorem Symbol.map_head_modify (phases : List Symbol) (k : Nat) (child : Symbol) :
    (phases.modify k (·.addChild child)).map Symbol.head = phases.map Symbol.head := by
  refine List.ext_getElem? fun i => ?_
  rw [List.getElem?_map, List.getElem?_map, List.getElem?_modify, Option.map_eq_map,
    Option.map_map]
  refine congrArg (Option.map · _) (funext fun phase => ?_)
  rw [Function.comp_apply]
  split <;> rfl

/-- **What the lines tell of all phases of a scan.** -/
structure ScanState.PhasesTold (lines : List (List Char)) (state : ScanState) : Prop where
  heads : state.phases.map Symbol.head = phaseLines lines
  hook_lt : ∀ k, state.heating = some k → k < state.phases.length
  each : ∀ k phase, state.phases[k]? = some phase → PhaseTold lines phase (state.heating = some k)

namespace ScanState.PhasesTold

variable {lines : List (List Char)} {line : List Char} {state : ScanState}

theorem start : PhasesTold [] .start :=
  ⟨rfl, by simp [ScanState.start], by simp [ScanState.start]⟩

/-- A line that names nothing below the root changes nothing. -/
theorem keep (h : PhasesTold lines state) {next : ScanState} (hphases : next.phases = state.phases)
    (hheating : next.heating = state.heating) (hphase : LogRule.initPhase.reads? line = none)
    (hend : LogRule.initEnd.reads? line = none)
    (hsystem : state.heating.isSome → LogRule.heatingSystem.reads? line = none) :
    PhasesTold (lines ++ [line]) next := by
  refine ⟨?_, ?_, fun k phase hk => ?_⟩
  · rw [hphases, h.heads, phaseLines_snoc, phaseTitle?_of_none hphase, hend]
    simp
  · rw [hphases, hheating]
    exact h.hook_lt
  · rw [hphases] at hk
    rw [hheating]
    exact (h.each k phase hk).keep hphase fun hopen => hsystem (by simp [hopen])

/-- A line that names a phase of either kind, and leaves the hook as `hook`. -/
theorem addPhase (h : PhasesTold lines state) (rule : LogRule) {title : String}
    (htitle : phaseTitle? line = some title) {hook : Option Nat}
    (hlt : ∀ k, hook = some k → k ≤ state.phases.length)
    (hnew : LogRule.initPhase.reads? line = some heatingPhaseTitle ↔
      hook = some state.phases.length)
    (hold : ∀ k phase, state.phases[k]? = some phase →
      PhaseTold (lines ++ [line]) phase (hook = some k)) :
    PhasesTold (lines ++ [line])
      { state.addPhase (rule.symbol title lines.length line) with heating := hook } := by
  refine ⟨?_, fun k hk => ?_, fun k phase hk => ?_⟩
  · rw [phaseLines_snoc, htitle, ← h.heads]
    simp [ScanState.addPhase, Symbol.head, LogRule.symbol, Symbol.leaf]
  · have := hlt k hk
    simp only [ScanState.addPhase, List.length_append, List.length_singleton]
    omega
  · simp only [ScanState.addPhase] at hk ⊢
    obtain hlt' | rfl | hlt' := Nat.lt_trichotomy k state.phases.length
    · rw [List.getElem?_append_left hlt'] at hk
      exact hold k phase hk
    · rw [List.getElem?_concat_length] at hk
      cases hk
      exact (PhaseTold.new rule title lines line).congr hnew
    · rw [List.getElem?_eq_none (by simp; omega)] at hk
      cases hk

/-- A line that names a phase. -/
theorem initPhase (h : PhasesTold lines state) {token : String}
    (hphase : LogRule.initPhase.reads? line = some token) :
    PhasesTold (lines ++ [line])
      (LogRule.initPhase.fire (LogRule.initPhase.symbol token lines.length line) state) := by
  have htitle : (LogRule.initPhase.symbol token lines.length line).title = token := rfl
  rw [LogRule.fire, htitle]
  refine h.addPhase .initPhase (phaseTitle?_of_initPhase hphase) (fun k hk => ?_) ?_
    fun k phase hk => ((h.each k phase hk).close hphase).congr ?_
  · split at hk
    next => exact Nat.le_of_eq (Option.some.inj hk).symm
    next => cases hk
  · simp [hphase]
  · -- an index that is in use is not the new one
    have hlt := (List.getElem?_eq_some_iff.mp hk).1
    simp [Nat.ne_of_gt hlt]

/-- A line with the end of the initialisation. -/
theorem initEnd (h : PhasesTold lines state) {title : String}
    (hend : LogRule.initEnd.reads? line = some title) :
    PhasesTold (lines ++ [line])
      (LogRule.initEnd.fire (LogRule.initEnd.symbol title lines.length line) state) := by
  have hphase : LogRule.initPhase.reads? line = none := LogRule.reads?_of_ne hend (by decide)
  have hsystem : LogRule.heatingSystem.reads? line = none := LogRule.reads?_of_ne hend (by decide)
  have htitle := (phaseTitle?_of_none hphase).trans hend
  refine h.addPhase .initEnd htitle (fun k hk => Nat.le_of_lt (h.hook_lt k hk)) ?_
    fun k phase hk => (h.each k phase hk).keep hphase fun _ => hsystem
  refine iff_of_false (by simp [hphase]) fun hhook => Nat.lt_irrefl _ (h.hook_lt _ hhook)

/-- A line with a system for the open phase. -/
theorem heatingSystem (h : PhasesTold lines state) {name : String} {k : Nat}
    (hopen : state.heating = some k) (hsystem : LogRule.heatingSystem.reads? line = some name) :
    PhasesTold (lines ++ [line])
      (LogRule.heatingSystem.fire (LogRule.heatingSystem.symbol name lines.length line) state) := by
  have hphase : LogRule.initPhase.reads? line = none := LogRule.reads?_of_ne hsystem (by decide)
  have hend : LogRule.initEnd.reads? line = none := LogRule.reads?_of_ne hsystem (by decide)
  rw [LogRule.fire, ScanState.addSystem, hopen]
  refine ⟨?_, ?_, fun k' phase hk' => ?_⟩
  · rw [phaseLines_snoc, phaseTitle?_of_none hphase, hend, ← h.heads]
    simpa using Symbol.map_head_modify state.phases k _
  · intro k' hk'
    rw [List.length_modify]
    exact h.hook_lt k' (hopen.trans hk')
  · obtain ⟨old, hold, rfl⟩ := Option.map_eq_some_iff.mp ((List.getElem?_modify ..).symm.trans hk')
    have htold := h.each k' old hold
    simp only [hopen] at htold ⊢
    split
    next heq => exact htold.addSystem (congrArg some heq) hsystem
    next hne => exact htold.keep hphase fun heq => absurd (Option.some.inj heq) hne

/-- **One more line.** -/
theorem step (h : PhasesTold lines state) (line : List Char) :
    PhasesTold (lines ++ [line]) (logStep state lines.length line) := by
  obtain ⟨rule, title, hready, hread, hstep⟩ | ⟨hnone, hstep⟩ :=
    logStep_cases state lines.length line
  · rw [hstep]
    cases rule with
    | initPhase => exact h.initPhase hread
    | initEnd => exact h.initEnd hread
    | heatingSystem =>
      obtain ⟨k, hk⟩ := Option.isSome_iff_exists.mp hready
      exact h.heatingSystem hk hread
    | closeChemistry | closeContinuum | spectrum | openChemistry | openContinuum
    | lineTransfer =>
      exact h.keep rfl rfl (LogRule.reads?_of_ne hread (by decide))
        (LogRule.reads?_of_ne hread (by decide)) fun _ => LogRule.reads?_of_ne hread (by decide)
  · rw [hstep]
    exact h.keep rfl rfl (hnone _ rfl) (hnone _ rfl) (hnone .heatingSystem)

end ScanState.PhasesTold

/-- **The phases of a scan are told by the lines.** -/
theorem phasesTold_logState (lines : List (List Char)) :
    (logState lines).PhasesTold lines := by
  induction lines using List.reverseRecOn with
  | nil => exact .start
  | append_singleton lines line ih =>
    rw [logState_snoc]
    exact ih.step line

/-- **The phases of a log that was read to its end.** -/
theorem logOutline_phases (text : String) (token : Option CancelToken)
    (hlast : CancelToken.Outlasts token (splitLines text.toList).length) :
    let lines := splitLines text.toList
    ∃ phases stages, logOutline text token = ScanState.root phases :: stages ∧
      phases.map (fun s => (s.title, s.range.start.line)) =
        lines.zipIdx.filterMap (fun p => (phaseTitle? p.1).map (·, p.2)) ∧
      (∀ phase ∈ phases, ∀ name q, HasSymbol phase.children name q ↔
        phase.range.start.line < q ∧
        HasLine lines phase.range.start.line
          (fun line => (initPhase? line).map String.ofList = some heatingPhaseTitle) ∧
        (∀ k, phase.range.start.line < k → k < q →
          ¬ HasLine lines k fun line => (initPhase? line).isSome) ∧
        HasLine lines q fun line => (initSystem? line).map String.ofList = some name) ∧
      ∀ phase ∈ phases, phase.title ≠ heatingPhaseTitle → phase.children = [] := by
  intro lines
  have htold := phasesTold_logState lines
  refine ⟨(logState lines).phases, (logState lines).stages, (logOutline_cases text token).1 hlast,
    htold.heads, ?_, ?_⟩
  · intro phase hphase name q
    obtain ⟨k, hk⟩ := List.getElem?_of_mem hphase
    rw [(htold.each k phase hk).children_iff]
    simp only [SystemBelow, HeatingSince, OpenSince, LogRule.reads?, Option.isSome_map, and_assoc]
  · intro phase hphase htitle
    obtain ⟨k, hk⟩ := List.getElem?_of_mem hphase
    rw [List.eq_nil_iff_forall_not_mem]
    intro child hchild
    have hbelow := ((htold.each k phase hk).children_iff child.title child.range.start.line).mp
      ⟨child, hchild, rfl, rfl⟩
    have hhead : phase.head ∈ phaseLines lines := htold.heads ▸ List.mem_map_of_mem hphase
    obtain ⟨line, hline, hname⟩ := mem_phaseLines.mp hhead
    obtain ⟨line', hline', htoken⟩ := hbelow.1.2.1
    obtain rfl := Option.some.inj (hline.symm.trans hline')
    exact htitle (Option.some.inj (hname.symm.trans (phaseTitle?_of_initPhase htoken)))

/-- An end of the initialisation comes between a phase and its system, and makes no difference. -/
theorem logOutline_phases_across_end :
    let text := " INIT_HEATCOOL: cooling\n total INIT CPU time 3 s\n   INIT SYS CO ..."
    let outline := logOutline text none
    CancelToken.Outlasts none (splitLines text.toList).length ∧
      ∃ phases stages, outline = ScanState.root phases :: stages ∧
      ∃ phase ∈ phases, phase.head = ("INIT_HEATCOOL", 0) ∧ HasSymbol phase.children "CO" 2 := by
  intro text outline
  have hlast := CancelToken.outlasts_none (splitLines text.toList).length
  obtain ⟨phases, stages, houtline, hheads, hchildren, -⟩ :=
    logOutline_phases text none hlast
  have htitles : phaseLines (splitLines text.toList) = [("INIT_HEATCOOL", 0), ("INIT END", 1)] := by
    decide +kernel
  obtain ⟨phase, hphase, hhead⟩ : ∃ phase ∈ phases, phase.head = ("INIT_HEATCOOL", 0) := by
    refine List.mem_map.mp ?_
    rw [show phases.map Symbol.head = _ from hheads.trans htitles]
    exact List.mem_cons_self
  have hzero : phase.range.start.line = 0 := congrArg Prod.snd hhead
  refine ⟨hlast, phases, stages, houtline, phase, hphase, hhead, ?_⟩
  have hlines : splitLines text.toList = [" INIT_HEATCOOL: cooling".toList,
      " total INIT CPU time 3 s".toList, "   INIT SYS CO ...".toList] := by decide +kernel
  rw [hchildren phase hphase, hzero, hlines]
  refine ⟨by decide, ⟨" INIT_HEATCOOL: cooling".toList, rfl, by decide⟩, fun k hlow hhigh => ?_,
    ⟨"   INIT SYS CO ...".toList, rfl, by decide⟩⟩
  obtain rfl : k = 1 := by omega
  rintro ⟨line, hline, hsome⟩
  cases hline
  exact absurd hsome (by decide)

end DiskLens
