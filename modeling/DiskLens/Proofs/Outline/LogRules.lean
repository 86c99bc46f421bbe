import DiskLens.Outline.LogScan

/-!
# One rule a line

A rule of a log scan reads certain lines, and counts there if the hook that it needs is open. No
line is read by two rules, so a table of rules does on a line what its one rule does, wherever that
rule stands in the table.

* `initPhase?_parts`: the parts of a line that names a phase.
* `LogRule.reads?`, `LogRule.ready`: what a rule reads off a line, and the hook that it needs.
* **`LogRule.reads?_unique`**: no line is read by two rules.
* **`runTable_of_title?`**, `runTable_of_none`, `runTable_congr`: a line through any table of rules.
* `applyRules_of_title?`, `applyRules_of_none`: the same for the rules of a scan.
* **`logStep_cases`**: what a scan does on a line.
-/

namespace DiskLens

/-! ## The parts of a phase line -/

theorem length_of_map_foldCase {stem : List Char} (h : stem.map foldCase = phaseStem) :
    stem.length = 5 := by
  rw [← List.length_map foldCase, h]
  rfl

/-- A line with a token, taken apart. -/
theorem initPhase?_parts {line token : List Char} (h : initPhase? line = some token) :
    ∃ stem name mark rest, dropSpace line = stem ++ (name ++ mark :: rest) ∧
      stem.map foldCase = phaseStem ∧ name ≠ [] ∧ (∀ c ∈ name, isPhaseChar c) ∧
      (mark = ':' ∨ mark = ' ') ∧ token = stem ++ name := by
  simp only [initPhase?] at h
  split at h
  next mark rest hrest =>
    split at h
    next hparts =>
      refine ⟨_, _, mark, rest, ?_, hparts.1, hparts.2.1, List.all_eq_true.mp List.all_takeWhile,
        hparts.2.2, (Option.some.inj h).symm⟩
      rw [← hrest, List.takeWhile_append_dropWhile, List.take_append_drop]
    next => cases h
  next => cases h

namespace LogRule

/-! ## What a rule reads -/

/-- The title of the symbols that a rule with a marker makes. -/
def heading : LogRule → String
  | closeChemistry => "CHEMISTRY END"
  | closeContinuum => "CONTINUUM RT END"
  | initPhase | heatingSystem => ""
  | initEnd => "INIT END"
  | spectrum => "SED"
  | openChemistry => "CHEMISTRY START"
  | openContinuum => "CONTINUUM RT START"
  | lineTransfer => "LINE TRANSFER"

/-- The title that a rule reads off a line, whatever came before. -/
def reads? (rule : LogRule) (line : List Char) : Option String :=
  match rule with
  | initPhase => (initPhase? line).map String.ofList
  | heatingSystem => (initSystem? line).map String.ofList
  | rule => if startsWith rule.marker line then some rule.heading else none

/-- The rule looks for its marker. -/
def isMarked (rule : LogRule) : Bool := rule ≠ initPhase ∧ rule ≠ heatingSystem

/-- The hook that a rule needs is open. -/
def ready (rule : LogRule) (state : ScanState) : Bool :=
  match rule with
  | closeChemistry => state.chemistry.isSome
  | closeContinuum => state.continuum.isSome
  | heatingSystem => state.heating.isSome
  | _ => true

theorem title?_eq (rule : LogRule) (state : ScanState) (line : List Char) :
    rule.title? state line = if rule.ready state then rule.reads? line else none := by
  cases rule with
  | closeChemistry => cases h : state.chemistry.isSome <;> simp [title?, ready, reads?, heading, h]
  | closeContinuum => cases h : state.continuum.isSome <;> simp [title?, ready, reads?, heading, h]
  | initPhase | heatingSystem | initEnd | spectrum | openChemistry | openContinuum
  | lineTransfer => rfl

theorem title?_eq_some_iff {rule : LogRule} {state : ScanState} {line : List Char}
    {title : String} :
    rule.title? state line = some title ↔ rule.ready state ∧ rule.reads? line = some title := by
  rw [title?_eq]
  split <;> simp [*]

/-! ## No line is read by two rules -/

/-- The letters that tell the rules apart: the first five of a line after its spaces. -/
def lineStem (line : List Char) : List Char := ((line.dropWhile (· == ' ')).take 5).map foldCase

/-- The letters that the lines of a rule start with. -/
def stem : LogRule → List Char
  | initPhase => phaseStem
  | heatingSystem => lineStem systemStem
  | rule => lineStem rule.marker.toList

theorem reads?_of_isMarked {rule : LogRule} (h : rule.isMarked) (line : List Char) :
    rule.reads? line = if startsWith rule.marker line then some rule.heading else none := by
  cases rule with
  | initPhase | heatingSystem => cases h
  | closeChemistry | closeContinuum | initEnd | spectrum | openChemistry | openContinuum
  | lineTransfer => rfl

theorem reads?_eq_some_iff {rule : LogRule} (h : rule.isMarked) {line : List Char}
    {title : String} :
    rule.reads? line = some title ↔ startsWith rule.marker line ∧ rule.heading = title := by
  rw [reads?_of_isMarked h, Option.ite_none_right_eq_some, Option.some.injEq]

theorem reads?_eq_none_iff {rule : LogRule} (h : rule.isMarked) {line : List Char} :
    rule.reads? line = none ↔ ¬ startsWith rule.marker line := by
  rw [reads?_of_isMarked h, ite_eq_right_iff]
  simp

/-- In front of a letter, dropping one space is dropping them all. -/
theorem dropWhile_space_of_dropSpace {line : List Char}
    (h : ((dropSpace line).take 5).map foldCase = phaseStem) :
    line.dropWhile (· == ' ') = dropSpace line := by
  have hspace : ∀ {c : Char} {cs : List Char}, dropSpace line = c :: cs → c ≠ ' ' := by
    rintro c cs hline rfl
    rw [hline] at h
    cases h
  unfold dropSpace at hspace ⊢
  split
  next cs => cases cs <;> simp_all
  next hline => cases line <;> simp_all

theorem lineStem_of_initPhase? {line token : List Char} (h : initPhase? line = some token) :
    lineStem line = phaseStem := by
  obtain ⟨stem, name, mark, rest, hbody, hstem, -⟩ := initPhase?_parts h
  have hlength : stem.length = 5 := length_of_map_foldCase hstem
  have htake : (dropSpace line).take 5 = stem := by
    rw [hbody, ← hlength, List.take_left]
  rw [← htake] at hstem
  rw [lineStem, dropWhile_space_of_dropSpace hstem]
  exact hstem

theorem lineStem_of_initSystem? {line name : List Char} (h : initSystem? line = some name) :
    lineStem line = lineStem systemStem := by
  simp only [initSystem?] at h
  split at h
  next hstem =>
    obtain ⟨rest, hrest⟩ := List.isPrefixOf_iff_prefix.mp hstem
    rw [lineStem, ← hrest]
    rfl
  next => cases h

/-- The stem of a line shows its rule. -/
theorem lineStem_of_reads? {rule : LogRule} {line : List Char} {title : String}
    (h : rule.reads? line = some title) : lineStem line = rule.stem := by
  cases rule with
  | initPhase =>
    obtain ⟨token, htoken, -⟩ := Option.map_eq_some_iff.mp h
    exact lineStem_of_initPhase? htoken
  | heatingSystem =>
    obtain ⟨name, hname, -⟩ := Option.map_eq_some_iff.mp h
    exact lineStem_of_initSystem? hname
  | closeChemistry | closeContinuum | initEnd | spectrum | openChemistry | openContinuum
  | lineTransfer =>
    obtain ⟨hstart, -⟩ := (reads?_eq_some_iff rfl).mp h
    obtain ⟨rest, rfl⟩ := List.isPrefixOf_iff_prefix.mp hstart
    rfl

/-- A stem belongs to one rule, but for the two ends of a chemistry section. -/
theorem stem_injective {rule rule' : LogRule} (h : rule.stem = rule'.stem) :
    rule = rule' ∨ rule.isMarked ∧ rule'.isMarked ∧
      ¬ rule.marker.toList <+: rule'.marker.toList ∧
      ¬ rule'.marker.toList <+: rule.marker.toList := by
  cases rule <;> cases rule' <;>
    first
      | exact .inl rfl
      | exact absurd h (by decide)
      | exact .inr (by decide)

/-- **No line is read by two rules.** -/
theorem reads?_unique {rule rule' : LogRule} {line : List Char} {title title' : String}
    (h : rule.reads? line = some title) (h' : rule'.reads? line = some title') : rule = rule' := by
  have hstem : rule.stem = rule'.stem := (lineStem_of_reads? h).symm.trans (lineStem_of_reads? h')
  obtain heq | ⟨hm, hm', hno, hno'⟩ := stem_injective hstem
  · exact heq
  · -- of two markers at the start of one line, one would start the other
    have hpre := List.isPrefixOf_iff_prefix.mp ((reads?_eq_some_iff hm).mp h).1
    have hpre' := List.isPrefixOf_iff_prefix.mp ((reads?_eq_some_iff hm').mp h').1
    obtain hle | hle := List.prefix_or_prefix_of_prefix hpre hpre'
    · exact absurd hle hno
    · exact absurd hle hno'

/-- A line that is read by a rule has no other marker. -/
theorem startsWith_marker_iff {rule rule' : LogRule} {line : List Char} {title : String}
    (h : rule.reads? line = some title) (hm : rule'.isMarked) :
    startsWith rule'.marker line ↔ rule = rule' := by
  constructor
  · intro hstart
    exact reads?_unique h ((reads?_eq_some_iff hm).mpr ⟨hstart, rfl⟩)
  · rintro rfl
    exact ((reads?_eq_some_iff hm).mp h).1

theorem reads?_of_ne {rule rule' : LogRule} {line : List Char} {title : String}
    (h : rule.reads? line = some title) (hne : rule' ≠ rule) : rule'.reads? line = none := by
  rw [Option.eq_none_iff_forall_ne_some]
  exact fun _ h' => hne (reads?_unique h' h)

theorem title?_of_ne {rule rule' : LogRule} {state : ScanState} {line : List Char} {title : String}
    (h : rule.reads? line = some title) (hne : rule' ≠ rule) : rule'.title? state line = none := by
  rw [title?_eq, reads?_of_ne h hne, ite_self]

/-- The symbol that a rule makes of a line. -/
def symbol (rule : LogRule) (title : String) (n : Nat) (line : List Char) : Symbol :=
  .leaf title rule.detail rule.kind ⟨⟨n, 0⟩, ⟨n, line.length⟩⟩

end LogRule

/-! ## A line through a table of rules -/

/-- **The rules of a table in their order**, where `act` says what a rule does in a state: those
that fired, or the error of the one that failed, and the state that is left behind. -/
def runTable {ε : Type} (act : LogRule → ScanState → Except ε (Option ScanState))
    (fired : List LogRule) (state : ScanState) :
    List LogRule → Except ε (List LogRule) × ScanState
  | [] => (.ok fired, state)
  | rule :: rules =>
    if fired.any (·.group = rule.group) then runTable act fired state rules
    else match act rule state with
      | .error e => (.error e, state)
      | .ok none => runTable act fired state rules
      | .ok (some next) => runTable act (fired ++ [rule]) next rules

/-- The rules of a scan do not tell in which state they failed. -/
theorem applyFrom_eq_runTable (n : Int) (line : List Char) (fired : List LogRule)
    (state : ScanState) (rules : List LogRule) :
    applyFrom n line fired state rules =
      let left := runTable (fun rule state => rule.apply state n line) fired state rules
      left.1.map (·, left.2) := by
  induction rules generalizing fired state with
  | nil => rfl
  | cons rule rules ih =>
    unfold applyFrom runTable
    split
    next => exact ih fired state
    next =>
      cases rule.apply state n line with
      | error e => rfl
      | ok next? =>
        cases next? with
        | none => exact ih fired state
        | some next => exact ih (fired ++ [rule]) next

/-- A table has a rule for a line, or none. -/
theorem title?_cases (rules : List LogRule) (state : ScanState) (line : List Char) :
    (∃ rule ∈ rules, ∃ title, rule.title? state line = some title) ∨
      ∀ rule ∈ rules, rule.title? state line = none := by
  by_cases h : ∃ rule ∈ rules, ∃ title, rule.title? state line = some title
  · exact .inl h
  · refine .inr fun rule hmem => Option.eq_none_iff_forall_ne_some.mpr fun title htitle => ?_
    exact h ⟨rule, hmem, title, htitle⟩

section Table

variable {rule : LogRule} {rules rules' : List LogRule} {state : ScanState} {n : Int}
  {line : List Char} {title : String}

section Act

variable {ε : Type} {act : LogRule → ScanState → Except ε (Option ScanState)}

theorem runTable_of_none {fired : List LogRule} (h : ∀ r ∈ rules, act r state = .ok none) :
    runTable act fired state rules = (.ok fired, state) := by
  induction rules with
  | nil => rfl
  | cons r rules ih =>
    have hrest := ih fun r' hr' => h r' (List.mem_cons_of_mem r hr')
    rw [runTable, h r List.mem_cons_self]
    split
    next => exact hrest
    next => exact hrest

variable (hact : ∀ r s, r.title? s line = none → act r s = .ok none)

include hact

/-- After its rule no other rule applies to a line, whatever the state has become. -/
theorem runTable_of_fired (h : rule.reads? line = some title) :
    runTable act [rule] state rules = (.ok [rule], state) := by
  induction rules with
  | nil => rfl
  | cons r rules ih =>
    by_cases hr : r = rule
    · rw [runTable, if_pos (by simp [hr])]
      exact ih
    · rw [runTable, hact r state (LogRule.title?_of_ne h hr)]
      split
      next => exact ih
      next => exact ih

/-- **A table of rules does what its one rule for the line does.** -/
theorem runTable_of_title? (hmem : rule ∈ rules) (h : rule.title? state line = some title) :
    runTable act [] state rules = match act rule state with
      | .error e => (.error e, state)
      | .ok none => (.ok [], state)
      | .ok (some next) => (.ok [rule], next) := by
  have hread := (LogRule.title?_eq_some_iff.mp h).2
  have hother : ∀ r, r ≠ rule → act r state = .ok none := fun r hr =>
    hact r state (LogRule.title?_of_ne hread hr)
  induction rules with
  | nil => cases hmem
  | cons r rules ih =>
    rw [runTable, if_neg (by simp)]
    by_cases hr : r = rule
    · subst hr
      rcases hresult : act r state with e | _ | next
      · rfl
      · refine runTable_of_none fun r' _ => ?_
        by_cases hr' : r' = r
        · rw [hr', hresult]
        · exact hother r' hr'
      · exact runTable_of_fired hact hread
    · rw [hother r hr]
      exact ih ((List.mem_cons.mp hmem).resolve_left (Ne.symm hr))

/-- **A table is the set of its rules.** -/
theorem runTable_congr (h : ∀ rule, rule ∈ rules ↔ rule ∈ rules') :
    runTable act [] state rules = runTable act [] state rules' := by
  obtain ⟨rule, hmem, title, htitle⟩ | hnone := title?_cases rules state line
  · rw [runTable_of_title? hact hmem htitle, runTable_of_title? hact ((h rule).mp hmem) htitle]
  · rw [runTable_of_none fun r hr => hact r state (hnone r hr),
      runTable_of_none fun r hr => hact r state (hnone r ((h r).mpr hr))]

end Act

theorem LogRule.apply_of_none (h : rule.title? state line = none) :
    rule.apply state n line = .ok none := by
  rw [LogRule.apply, h]

theorem applyRules_of_none (h : ∀ r ∈ rules, r.title? state line = none) :
    applyRules rules state n line = .ok ([], state) := by
  rw [applyRules, applyFrom_eq_runTable,
    runTable_of_none fun r hr => LogRule.apply_of_none (h r hr)]
  rfl

theorem applyRules_of_title? (hmem : rule ∈ rules) (h : rule.title? state line = some title) :
    applyRules rules state n line = (Range.ofLine n line).map fun range =>
      ([rule], rule.fire (.leaf title rule.detail rule.kind range) state) := by
  rw [applyRules, applyFrom_eq_runTable,
    runTable_of_title? (fun _ _ => LogRule.apply_of_none) hmem h, LogRule.apply, h]
  cases Range.ofLine n line with
  | error e => rfl
  | ok range => rfl

end Table

/-! ## A line of a log -/

theorem Position.of_natCast (line character : Nat) :
    Position.of line character = .ok ⟨line, character⟩ := by
  rw [Position.of, if_neg (by omega)]
  rfl

theorem Range.ofLine_natCast (n : Nat) (line : List Char) :
    Range.ofLine n line = .ok ⟨⟨n, 0⟩, ⟨n, line.length⟩⟩ := by
  have hstart : Position.of n 0 = .ok ⟨n, 0⟩ := Position.of_natCast n 0
  rw [Range.ofLine, hstart, Position.of_natCast]
  rfl

theorem mem_logRules (rule : LogRule) : rule ∈ logRules := by
  cases rule <;> decide

/-- **What a scan does on a line**: what the one rule for it does, or nothing. -/
theorem logStep_cases (state : ScanState) (n : Nat) (line : List Char) :
    (∃ (rule : LogRule) (title : String), rule.ready state ∧ rule.reads? line = some title ∧
      logStep state n line = rule.fire (rule.symbol title n line) state) ∨
    (∀ rule : LogRule, rule.ready state → rule.reads? line = none) ∧
      logStep state n line = state := by
  obtain ⟨rule, hmem, title, h⟩ | hnone := title?_cases logRules state line
  · obtain ⟨hready, hread⟩ := LogRule.title?_eq_some_iff.mp h
    refine .inl ⟨rule, title, hready, hread, ?_⟩
    rw [logStep, applyRules_of_title? hmem h, Range.ofLine_natCast]
    rfl
  · refine .inr ⟨fun rule hready => ?_, ?_⟩
    · rw [← hnone rule (mem_logRules rule), LogRule.title?_eq, if_pos hready]
    · rw [logStep, applyRules_of_none hnone]

theorem logStep_of_reads? {rule : LogRule} {state : ScanState} {line : List Char} {title : String}
    (hready : rule.ready state) (hread : rule.reads? line = some title) (n : Nat) :
    logStep state n line = rule.fire (rule.symbol title n line) state := by
  have htitle := LogRule.title?_eq_some_iff.mpr ⟨hready, hread⟩
  rw [logStep, applyRules_of_title? (mem_logRules rule) htitle, Range.ofLine_natCast]
  rfl

theorem logStep_of_none {state : ScanState} {line : List Char}
    (h : ∀ rule : LogRule, rule.ready state → rule.reads? line = none) (n : Nat) :
    logStep state n line = state := by
  rw [logStep, applyRules_of_none fun rule _ => ?_]
  rw [LogRule.title?_eq]
  split
  next hready => exact h rule hready
  next => rfl

end DiskLens
