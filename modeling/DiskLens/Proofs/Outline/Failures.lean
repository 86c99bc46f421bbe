import DiskLens.Proofs.Outline.Hooks

/-!
# Rules that fail

A rule takes several steps on a line: it makes the symbol, puts it into the outline and moves a
hook. Here the steps are taken one after the other on a state that keeps what was done before a
failure. As the symbol is made first, and as no two rules read one line, a failure finds the state
untouched.

* `ScanM`: steps on a scan state that may fail.
* `LogRule.perform`, **`performRules`**: the steps of a rule, and of a table of rules on a line.
* `LogRule.perform_run`, `performRules_run`: they amount to what `tryRules` says.
* **`failed_call_keeps_state`**: which calls fail, and what a failed call leaves behind.
-/

namespace DiskLens

/-! ## Steps -/

/-- Steps on a scan state. What was done before a failure stays done. -/
abbrev ScanM := ExceptT RuleFault (StateM ScanState)

namespace ScanM

variable {α β : Type}

/-- The result or the failure, and the state that is left behind. -/
def runFrom (steps : ScanM α) (state : ScanState) : Except RuleFault α × ScanState :=
  (steps.run.run state).run

@[simp]
theorem runFrom_pure (a : α) (state : ScanState) :
    (pure a : ScanM α).runFrom state = (.ok a, state) := rfl

@[simp]
theorem runFrom_throw (fault : RuleFault) (state : ScanState) :
    (throw fault : ScanM α).runFrom state = (.error fault, state) := rfl

@[simp]
theorem runFrom_get (state : ScanState) :
    (get : ScanM ScanState).runFrom state = (.ok state, state) := rfl

@[simp]
theorem runFrom_modify (f : ScanState → ScanState) (state : ScanState) :
    (modify f : ScanM Unit).runFrom state = (.ok (), f state) := rfl

/-- A failure ends the steps, in the state it finds. -/
@[simp]
theorem runFrom_bind (steps : ScanM α) (next : α → ScanM β) (state : ScanState) :
    (steps >>= next).runFrom state = match steps.runFrom state with
      | (.ok a, after) => (next a).runFrom after
      | (.error fault, after) => (.error fault, after) := by
  unfold runFrom
  rw [ExceptT.run_bind, StateT.run_bind]
  rcases steps.run.run state with ⟨fault | a, after⟩ <;> rfl

/-- A new stage at the end, and its index counted from the root. -/
def appendStage (s : Symbol) : ScanM Nat := do
  modify (·.addStage s)
  return (← get).stages.length

/-- A new phase at the end, and its index. -/
def appendPhase (s : Symbol) : ScanM Nat := do
  modify (·.addPhase s)
  return (← get).phases.length - 1

/-- The phase that the hook points to. -/
def openPhase : ScanM Symbol := do
  match (← get).heatingPhase? with
  | some phase => return phase
  | none => throw .noPhase

theorem openPhase_run (state : ScanState) :
    openPhase.runFrom state = match state.heatingPhase? with
      | some phase => (.ok phase, state)
      | none => (.error .noPhase, state) := by
  simp only [openPhase, runFrom_bind, runFrom_get]
  cases state.heatingPhase? with
  | none => exact runFrom_throw _ _
  | some phase => exact runFrom_pure _ _

theorem appendStage_run (s : Symbol) (state : ScanState) :
    (appendStage s).runFrom state = (.ok (state.stages.length + 1), state.addStage s) := by
  simp only [appendStage, runFrom_bind, runFrom_modify, runFrom_get, runFrom_pure]
  simp [ScanState.addStage]

theorem appendPhase_run (s : Symbol) (state : ScanState) :
    (appendPhase s).runFrom state = (.ok state.phases.length, state.addPhase s) := by
  simp only [appendPhase, runFrom_bind, runFrom_modify, runFrom_get, runFrom_pure]
  simp [ScanState.addPhase]

end ScanM

/-! ## The steps of a rule -/

namespace LogRule

open ScanM

variable (rule : LogRule) (title : String) (n : Int) (line : List Char)

/-- The symbol of a line, if the line has a proper number. -/
def makeSymbol : ScanM Symbol :=
  match Range.ofLine n line with
  | .ok range => return .leaf title rule.detail rule.kind range
  | .error e => throw (.position e)

/-- A symbol is made and put into the outline; then a hook goes by its index. -/
def place (append : Symbol → ScanM Nat) (move : Nat → ScanState → ScanState) : ScanM Unit := do
  let k ← append (← rule.makeSymbol title n line)
  modify (move k)

/-- **What a rule does on a line of its own**, step by step. -/
def perform : ScanM Unit :=
  match rule with
  | closeChemistry => stage fun _ state => { state with chemistry := none }
  | closeContinuum => stage fun _ state => { state with continuum := none }
  | openChemistry => stage fun k state => { state with chemistry := some k }
  | openContinuum => stage fun k state => { state with continuum := some k }
  | spectrum | lineTransfer => stage fun _ state => state
  | initPhase => phase fun k state =>
      { state with heating := if title = heatingPhaseTitle then some k else none }
  | initEnd => phase fun _ state => state
  | heatingSystem => do
    let _ ← openPhase
    let s ← rule.makeSymbol title n line
    modify (·.addSystem s)
where
  stage := rule.place title n line appendStage
  phase := rule.place title n line appendPhase

variable (state : ScanState)

theorem makeSymbol_run :
    (rule.makeSymbol title n line).runFrom state = match Range.ofLine n line with
      | .error e => (.error (.position e), state)
      | .ok range => (.ok (.leaf title rule.detail rule.kind range), state) := by
  unfold makeSymbol
  cases Range.ofLine n line with
  | error e => exact runFrom_throw _ _
  | ok range => exact runFrom_pure _ _

/-- The symbol is made before anything changes. -/
theorem place_run {append : Symbol → ScanM Nat} {index : ScanState → Nat}
    {add : ScanState → Symbol → ScanState}
    (happend : ∀ s state, (append s).runFrom state = (.ok (index state), add state s))
    (move : Nat → ScanState → ScanState) :
    (rule.place title n line append move).runFrom state = match Range.ofLine n line with
      | .error e => (.error (.position e), state)
      | .ok range => (.ok (), move (index state)
          (add state (.leaf title rule.detail rule.kind range))) := by
  simp only [place, runFrom_bind, makeSymbol_run]
  cases Range.ofLine n line with
  | error e => rfl
  | ok range => simp only [happend, runFrom_modify]

/-- **The steps of a rule are all taken, or none of them.** -/
theorem perform_run :
    (rule.perform title n line).runFrom state =
      if rule.lacksPhase state then (.error .noPhase, state)
      else match Range.ofLine n line with
        | .error e => (.error (.position e), state)
        | .ok range => (.ok (), rule.fire (.leaf title rule.detail rule.kind range) state) := by
  cases rule with
  | closeChemistry | closeContinuum | openChemistry | openContinuum | spectrum | lineTransfer =>
    rw [if_neg (by simp [lacksPhase]), perform, perform.stage]
    exact place_run _ _ _ _ _ appendStage_run _
  | initPhase | initEnd =>
    rw [if_neg (by simp [lacksPhase]), perform, perform.phase]
    exact place_run _ _ _ _ _ appendPhase_run _
  | heatingSystem =>
    -- this rule looks for its phase before it makes the symbol
    simp only [perform, runFrom_bind, openPhase_run, makeSymbol_run]
    cases hphase : state.heatingPhase? with
    | none => rw [if_pos (by simp [lacksPhase, hphase])]
    | some phase =>
      rw [if_neg (by simp [lacksPhase, hphase])]
      cases Range.ofLine n line <;> rfl

end LogRule

/-! ## The steps of a table -/

/-- The rules that are left on a line, after those in `fired`. -/
def performFrom (n : Int) (line : List Char) (fired : List LogRule) :
    List LogRule → ScanM (List LogRule)
  | [] => return fired
  | rule :: rules => do
    if fired.any (·.group = rule.group) then performFrom n line fired rules
    else match rule.title? (← get) line with
      | none => performFrom n line fired rules
      | some title => do
        rule.perform title n line
        performFrom n line (fired ++ [rule]) rules

/-- **One line through a table of rules**, step by step: the rules that fired. -/
def performRules (rules : List LogRule) (n : Int) (line : List Char) : ScanM (List LogRule) :=
  performFrom n line [] rules

theorem performFrom_run (n : Int) (line : List Char) (fired : List LogRule) (state : ScanState)
    (rules : List LogRule) :
    (performFrom n line fired rules).runFrom state =
      runTable (fun rule state => rule.attempt state n line) fired state rules := by
  induction rules generalizing fired state with
  | nil => rfl
  | cons rule rules ih =>
    unfold performFrom runTable
    by_cases hfired : fired.any (·.group = rule.group)
    · rw [if_pos hfired, if_pos hfired]
      exact ih fired state
    · rw [if_neg hfired, if_neg hfired, ScanM.runFrom_bind, ScanM.runFrom_get]
      cases htitle : rule.title? state line with
      | none =>
        simp only [htitle, LogRule.attempt_of_none htitle]
        exact ih fired state
      | some title =>
        simp only [htitle, LogRule.attempt_of_title? htitle, ScanM.runFrom_bind,
          LogRule.perform_run]
        by_cases hlacks : rule.lacksPhase state
        · simp only [if_pos hlacks]
        · simp only [if_neg hlacks]
          cases Range.ofLine n line with
          | error e => rfl
          | ok range => exact ih _ _

/-- A table does step by step what it does at once. -/
theorem performRules_run (rules : List LogRule) (state : ScanState) (n : Int) (line : List Char) :
    (performRules rules n line).runFrom state = tryRules rules state n line :=
  performFrom_run n line [] state rules

/-! ## Calls that fail -/

theorem Range.ofLine_of_neg {n : Int} (h : n < 0) (line : List Char) :
    Range.ofLine n line = .error ⟨n, 0⟩ := by
  rw [Range.ofLine, Position.of, if_pos (.inl h)]
  rfl

theorem Range.ofLine_of_nonneg {n : Int} (h : 0 ≤ n) (line : List Char) :
    ∃ range, Range.ofLine n line = .ok range := by
  obtain ⟨k, rfl⟩ := Int.eq_ofNat_of_zero_le h
  exact ⟨_, Range.ofLine_natCast k line⟩

/-- A table fails on a line if the number of the line is negative and one of its rules applies. -/
theorem applyRules_eq_error_iff {rules : List LogRule} {state : ScanState} {n : Int}
    {line : List Char} {e : PositionError} :
    applyRules rules state n line = .error e ↔
      e = ⟨n, 0⟩ ∧ n < 0 ∧ ∃ rule ∈ rules, (rule.title? state line).isSome := by
  obtain ⟨rule, hmem, title, htitle⟩ | hnone := title?_cases rules state line
  · have happlies : ∃ rule ∈ rules, (rule.title? state line).isSome :=
      ⟨rule, hmem, by rw [htitle]; rfl⟩
    rw [applyRules_of_title? hmem htitle]
    by_cases hn : n < 0
    · rw [Range.ofLine_of_neg hn]
      constructor
      · intro herror
        cases herror
        exact ⟨rfl, hn, happlies⟩
      · rintro ⟨rfl, -⟩
        rfl
    · obtain ⟨range, hrange⟩ := Range.ofLine_of_nonneg (Int.not_lt.mp hn) line
      rw [hrange]
      simp [Except.map, hn]
  · rw [applyRules_of_none hnone]
    simp only [reduceCtorEq, false_iff]
    rintro ⟨-, -, rule, hmem, htitle⟩
    simp [hnone rule hmem] at htitle

/-- **A call that fails leaves the state as it was.** After any calls, a line through a table of
rules fails if and only if its number is negative and some rule of the table applies to it in the
state. The fault is in the position, and the symbols, those below them and the hooks are as
before. -/
theorem failed_call_keeps_state (calls : List RuleCall) (call : RuleCall) :
    let state := ScanState.after calls
    let left := (performRules call.rules call.lineNo call.line).runFrom state
    ((∃ fault, left.1 = .error fault) ↔
      call.lineNo < 0 ∧ ∃ rule ∈ call.rules, (rule.title? state call.line).isSome) ∧
    (∀ fault, left.1 = .error fault →
      fault = .position ⟨call.lineNo, 0⟩ ∧ left.2 = state) ∧
    left = match applyRules call.rules state call.lineNo call.line with
      | .error e => (.error (.position e), state)
      | .ok (fired, next) => (.ok fired, next) := by
  intro state left
  have hleft : left = match applyRules call.rules state call.lineNo call.line with
      | .error e => (.error (.position e), state)
      | .ok (fired, next) => (.ok fired, next) := by
    show (performRules call.rules call.lineNo call.line).runFrom state = _
    rw [performRules_run]
    apply tryRules_eq
    intro rule hready
    exact (ScanState.after_consistent calls).not_lacksPhase hready
  rcases happly : applyRules call.rules state call.lineNo call.line with e | ⟨fired, next⟩
  · obtain ⟨rfl, hneg, happlies⟩ := applyRules_eq_error_iff.mp happly
    rw [happly] at hleft
    refine ⟨⟨fun _ => ⟨hneg, happlies⟩, fun _ => ⟨_, by rw [hleft]⟩⟩, fun fault hfault => ?_, hleft⟩
    rw [hleft] at hfault
    exact ⟨(Except.error.inj hfault).symm, by rw [hleft]⟩
  · rw [happly] at hleft
    refine ⟨⟨fun ⟨fault, hfault⟩ => ?_, fun hfails => ?_⟩, fun fault hfault => ?_, hleft⟩
    · rw [hleft] at hfault
      cases hfault
    · have herror := applyRules_eq_error_iff.mpr ⟨rfl, hfails⟩
      rw [happly] at herror
      cases herror
    · rw [hleft] at hfault
      cases hfault

/-- The end of a section that is open, on a line with a negative number: the section stays open. -/
theorem failed_call_keeps_state_of_chemistry :
    let state := ScanState.after [⟨logRules, 0, LogRule.openChemistry.marker.toList⟩]
    let line := LogRule.closeChemistry.marker.toList
    let left := (performRules logRules (-1) line).runFrom state
    state.chemistry = some 1 ∧ (LogRule.closeChemistry.title? state line).isSome ∧
      left.1 = .error (.position ⟨-1, 0⟩) ∧ left.2 = state := by
  intro state line left
  have happlies : (LogRule.closeChemistry.title? state line).isSome := rfl
  obtain ⟨hfails, hkeeps, -⟩ := failed_call_keeps_state
    [⟨logRules, 0, LogRule.openChemistry.marker.toList⟩] ⟨logRules, -1, line⟩
  obtain ⟨fault, hfault⟩ := hfails.mpr ⟨by decide, .closeChemistry, by decide, happlies⟩
  obtain ⟨rfl, hleft⟩ := hkeeps fault hfault
  exact ⟨rfl, happlies, hfault, hleft⟩

end DiskLens
