import DiskLens.Proofs.Outline.LogRules

/-!
# Tables of rules

A line can be put through any list of rules, with any number for the line. A rule then fails if the
number is negative, or if it has a system for a heating and cooling phase that is not there; what
the rules before it did to the state stays. As no line is read by two rules, the order of a table
and its repetitions make no difference, and nothing was done to the state before a failure.

* `LogRule.attempt`, **`tryRules`**: one rule and a table of rules, failures included.
* `tryRules_cases`: what a table does on a line.
* `tryRules_eq`, `tryRules_snd`: it is what `applyRules` says.
* `tableOutline`: the outline of a log by another table.
* **`rules_in_any_order`**: two tables with the same rules have the same outcome.
-/

namespace DiskLens

/-! ## Failures -/

/-- Why a rule cannot make its symbol: the number of the line is negative, or there is no phase for
the system. -/
inductive RuleFault
  | position (e : PositionError)
  | noPhase
deriving DecidableEq, Repr

/-- The phase that a rule needs for its system is not there. -/
def LogRule.lacksPhase (rule : LogRule) (state : ScanState) : Bool :=
  rule = heatingSystem && state.heatingPhase?.isNone

/-- One rule on one line. That a phase is missing is noticed before the number of the line. -/
def LogRule.attempt (rule : LogRule) (state : ScanState) (n : Int) (line : List Char) :
    Except RuleFault (Option ScanState) :=
  if (rule.title? state line).isSome && rule.lacksPhase state then .error .noPhase
  else (rule.apply state n line).mapError .position

/-- **One line through a table of rules**: those that fired or the failure, and the state that is
left behind. -/
def tryRules (rules : List LogRule) (state : ScanState) (n : Int) (line : List Char) :
    Except RuleFault (List LogRule) × ScanState :=
  runTable (fun rule state => rule.attempt state n line) [] state rules

section Attempt

variable {rule : LogRule} {rules rules' : List LogRule} {state : ScanState} {n : Int}
  {line : List Char} {title : String}

theorem LogRule.attempt_of_none (h : rule.title? state line = none) :
    rule.attempt state n line = .ok none := by
  rw [attempt, if_neg (by simp [h]), apply_of_none h]
  rfl

/-- What a rule does on a line of its own. -/
theorem LogRule.attempt_of_title? (h : rule.title? state line = some title) :
    rule.attempt state n line =
      if rule.lacksPhase state then .error .noPhase
      else match Range.ofLine n line with
        | .error e => .error (.position e)
        | .ok range => .ok (some (rule.fire (.leaf title rule.detail rule.kind range) state)) := by
  rw [attempt, apply, h, Option.isSome_some, Bool.true_and]
  split
  next => rfl
  next => cases Range.ofLine n line <;> rfl

/-- **What a table does on a line**: one of its rules makes a symbol or fails and leaves the state
as it was, or no rule applies. -/
theorem tryRules_cases (rules : List LogRule) (state : ScanState) (n : Int) (line : List Char) :
    (∃ rule ∈ rules, ∃ title, rule.title? state line = some title ∧
      tryRules rules state n line =
        if rule.lacksPhase state then (.error .noPhase, state)
        else match Range.ofLine n line with
          | .error e => (.error (.position e), state)
          | .ok range =>
            (.ok [rule], rule.fire (.leaf title rule.detail rule.kind range) state)) ∨
    (∀ rule ∈ rules, rule.title? state line = none) ∧
      tryRules rules state n line = (.ok [], state) := by
  obtain ⟨rule, hmem, title, htitle⟩ | hnone := title?_cases rules state line
  · refine .inl ⟨rule, hmem, title, htitle, ?_⟩
    rw [tryRules, runTable_of_title? (fun _ _ => LogRule.attempt_of_none) hmem htitle,
      LogRule.attempt_of_title? htitle]
    by_cases hlacks : rule.lacksPhase state
    · rw [if_pos hlacks, if_pos hlacks]
    · rw [if_neg hlacks, if_neg hlacks]
      cases Range.ofLine n line <;> rfl
  · exact .inr ⟨hnone, runTable_of_none fun rule hmem => LogRule.attempt_of_none (hnone rule hmem)⟩

/-! ## Agreement with a scan -/

/-- **A table does what a scan says**, as long as its rules have the phase that they need. -/
theorem tryRules_eq (hphase : ∀ rule : LogRule, rule.ready state → ¬ rule.lacksPhase state) :
    tryRules rules state n line = match applyRules rules state n line with
      | .error e => (.error (.position e), state)
      | .ok (fired, next) => (.ok fired, next) := by
  obtain ⟨rule, hmem, title, htitle, h⟩ | ⟨hnone, h⟩ := tryRules_cases rules state n line
  · have hready := (LogRule.title?_eq_some_iff.mp htitle).1
    rw [h, if_neg (hphase rule hready), applyRules_of_title? hmem htitle]
    cases Range.ofLine n line <;> rfl
  · rw [h, applyRules_of_none hnone]

/-- A hook that points nowhere takes no system. -/
theorem LogRule.fire_of_lacksPhase (h : rule.lacksPhase state) (s : Symbol) :
    rule.fire s state = state := by
  obtain ⟨rfl, hnone⟩ : rule = heatingSystem ∧ state.heatingPhase? = none := by
    simpa [lacksPhase] using h
  rw [fire, ScanState.addSystem]
  split
  next => rfl
  next k hk =>
    rw [ScanState.heatingPhase?, hk] at hnone
    rw [List.modify_eq_self (List.getElem?_eq_none_iff.mp hnone)]

/-- The state that is left is the one of the scan in any case. -/
theorem tryRules_snd (rules : List LogRule) (state : ScanState) (n : Int) (line : List Char) :
    (tryRules rules state n line).2 = match applyRules rules state n line with
      | .error _ => state
      | .ok (_, next) => next := by
  obtain ⟨rule, hmem, title, htitle, h⟩ | ⟨hnone, h⟩ := tryRules_cases rules state n line
  · rw [h, applyRules_of_title? hmem htitle]
    cases Range.ofLine n line with
    | error e => split <;> rfl
    | ok range =>
      split
      next hlacks => exact (LogRule.fire_of_lacksPhase hlacks _).symm
      next => rfl
  · rw [h, applyRules_of_none hnone]

/-- The state after one more line of a log, by a table of rules. -/
def tableStep (table : List LogRule) (state : ScanState) (n : Nat) (line : List Char) : ScanState :=
  (tryRules table state n line).2

theorem tableStep_logRules : tableStep logRules = logStep := by
  funext state n line
  rw [tableStep, tryRules_snd, logStep]
  rcases applyRules logRules state n line with e | ⟨fired, next⟩ <;> rfl

/-! ## Order and repetition -/

theorem tryRules_congr (h : ∀ rule, rule ∈ rules ↔ rule ∈ rules') :
    tryRules rules state n line = tryRules rules' state n line :=
  runTable_congr (fun _ _ => LogRule.attempt_of_none) h

theorem applyRules_congr (h : ∀ rule, rule ∈ rules ↔ rule ∈ rules') :
    applyRules rules state n line = applyRules rules' state n line := by
  rw [applyRules, applyRules, applyFrom_eq_runTable, applyFrom_eq_runTable,
    runTable_congr (fun _ _ => LogRule.apply_of_none) h]

/-- At most one rule fires on a line. -/
theorem length_fired_le_one {fired : List LogRule}
    (h : (tryRules rules state n line).1 = .ok fired) : fired.length ≤ 1 := by
  obtain ⟨rule, -, title, -, hrun⟩ | ⟨-, hrun⟩ := tryRules_cases rules state n line
  · rw [hrun] at h
    split at h
    next => cases h
    next =>
      split at h
      next => cases h
      next =>
        cases h
        exact Nat.le_refl 1
  · rw [hrun] at h
    cases h
    exact Nat.zero_le 1

end Attempt

theorem tableStep_congr {table table' : List LogRule}
    (h : ∀ rule, rule ∈ table ↔ rule ∈ table') : tableStep table = tableStep table' := by
  funext state n line
  rw [tableStep, tryRules_congr h, tableStep]

/-- The outline of a log whose lines go through a table of rules. -/
def tableOutline (table : List LogRule) (text : String) (token : Option CancelToken) :
    List Symbol :=
  let scan := scanLines (tableStep table) token .start 0 (splitLines text.toList)
  (scan.1.map ScanState.symbols).getD []

/-- **Neither the order of a table nor its repetitions matter.** Two tables with the same rules have
the same outcome on every line, in every state: the same rules that fired, at most one of them, or
the same failure, and the same state. So a log has one outline, in whatever order its rules are
tried. -/
theorem rules_in_any_order :
    (∀ rules rules' : List LogRule, (∀ rule, rule ∈ rules ↔ rule ∈ rules') →
      ∀ (state : ScanState) (n : Int) (line : List Char),
        tryRules rules state n line = tryRules rules' state n line ∧
        applyRules rules state n line = applyRules rules' state n line ∧
        ∀ fired, (tryRules rules state n line).1 = .ok fired → fired.length ≤ 1) ∧
    ∀ table : List LogRule, table.Perm logRules → ∀ (text : String) (token : Option CancelToken),
      tableOutline table text token = logOutline text token := by
  refine ⟨fun rules rules' h state n line => ?_, fun table hperm text token => ?_⟩
  · exact ⟨tryRules_congr h, applyRules_congr h, fun fired => length_fired_le_one⟩
  · have hstep : tableStep table = logStep := by
      rw [tableStep_congr fun _ => hperm.mem_iff, tableStep_logRules]
    unfold tableOutline logOutline logScan
    rw [hstep]

/-- The end of a section, and the same line with a negative number, through a table that is turned
round and doubled. -/
theorem rules_in_any_order_reversed :
    let state := logStep .start 0 LogRule.openChemistry.marker.toList
    let line := LogRule.closeChemistry.marker.toList
    let table := logRules.reverse ++ logRules
    (∀ rule, rule ∈ table ↔ rule ∈ logRules) ∧
      (tryRules table state 1 line).1 = .ok [.closeChemistry] ∧
      (tryRules table state (-1) line).1 = .error (.position ⟨-1, 0⟩) ∧
      logRules.reverse.Perm logRules ∧
      tableOutline logRules.reverse " CHEMISTRY AND ENERGY BALANCE ..." none =
        logOutline " CHEMISTRY AND ENERGY BALANCE ..." none := by
  intro state line table
  have hmem : ∀ rule, rule ∈ table ↔ rule ∈ logRules := by simp [table]
  have hperm : logRules.reverse.Perm logRules := List.reverse_perm logRules
  refine ⟨hmem, ?_, ?_, hperm, rules_in_any_order.2 _ hperm _ _⟩
  · rw [(rules_in_any_order.1 table logRules hmem state 1 line).1]
    rfl
  · rw [(rules_in_any_order.1 table logRules hmem state (-1) line).1]
    rfl

end DiskLens
