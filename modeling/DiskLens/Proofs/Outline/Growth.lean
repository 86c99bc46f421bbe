import DiskLens.Proofs.Outline.Trees
import DiskLens.Proofs.Text.Lines

/-!
# Outlines of growing logs

A log that is still being written keeps the outline it has. What the new lines add to it can be told
from them and from what is open before them, three bits, and it does not matter how the log came
there.

* `Symbol.shift`: a symbol some lines further down.
* `OpenHooks`: what is open; `ScanState.resumed`: a scan that starts with this open.
* `Growth`: what is added to an outline, and where; **`growth`**: what some lines add.
* `ScanState.graft`: a resumed scan on top of the scan before it; `ScanState.graft_logStep`: one
  more line.
* **`logState_append`**: a scan goes on as the resumed scan does.
* **`logOutline_append`**: the outline of a longer log.
-/

namespace DiskLens

/-! ## Symbols further down -/

/-- The position `n` lines further down. -/
def Position.shift (n : Nat) (p : Position) : Position := ⟨n + p.line, p.character⟩

/-- The range `n` lines further down. -/
def Range.shift (n : Nat) (r : Range) : Range := ⟨r.start.shift n, r.stop.shift n⟩

namespace Symbol

mutual

/-- **The symbol `n` lines further down**, with those below it. -/
def shift (n : Nat) : Symbol → Symbol
  | ⟨title, detail, kind, range, children⟩ =>
    ⟨title, detail, kind, range.shift n, shiftAll n children⟩

/-- Some symbols `n` lines further down. -/
def shiftAll (n : Nat) : List Symbol → List Symbol
  | [] => []
  | s :: symbols => shift n s :: shiftAll n symbols

end

/-- The symbol with more below it, at the end. -/
def addChildren (s : Symbol) (children : List Symbol) : Symbol :=
  { s with children := s.children ++ children }

variable (n : Nat)

@[simp] theorem title_shift (s : Symbol) : (s.shift n).title = s.title := by
  cases s
  rw [shift]

theorem shiftAll_eq_map (l : List Symbol) : shiftAll n l = l.map (shift n) := by
  induction l with
  | nil => rfl
  | cons s l ih => rw [shiftAll, ih, List.map_cons]

@[simp] theorem length_shiftAll (l : List Symbol) : (shiftAll n l).length = l.length := by
  rw [shiftAll_eq_map, List.length_map]

@[simp] theorem shiftAll_append (l l' : List Symbol) :
    shiftAll n (l ++ l') = shiftAll n l ++ shiftAll n l' := by
  simp only [shiftAll_eq_map, List.map_append]

theorem shift_addChild (s child : Symbol) :
    (s.addChild child).shift n = (s.shift n).addChild (child.shift n) := by
  cases s
  simp [addChild, shift, shiftAll]

theorem shiftAll_modify (l : List Symbol) (k : Nat) (child : Symbol) :
    shiftAll n (l.modify k (·.addChild child)) =
      (shiftAll n l).modify k (·.addChild (child.shift n)) := by
  induction l generalizing k with
  | nil => rw [List.modify_nil, shiftAll, List.modify_nil]
  | cons s l ih =>
    cases k with
    | zero => simp only [List.modify_zero_cons, shiftAll, shift_addChild]
    | succ k => simp only [List.modify_succ_cons, shiftAll, ih]

theorem shift_symbol (rule : LogRule) (title : String) (i : Nat) (line : List Char) :
    (rule.symbol title i line).shift n = rule.symbol title (n + i) line := rfl

end Symbol

/-! ## What is open -/

/-- **What is open** at some point of a log. -/
structure OpenHooks where
  chemistry : Bool
  continuum : Bool
  heating : Bool
deriving DecidableEq, Repr

namespace ScanState

/-- What a scan has open. -/
def openHooks (state : ScanState) : OpenHooks :=
  ⟨state.chemistry.isSome, state.continuum.isSome, state.heating.isSome⟩

/-- A phase that stands for the last one before a scan was resumed. -/
def lastPhase : Symbol := .leaf heatingPhaseTitle "" .phase ⟨⟨0, 0⟩, ⟨0, 0⟩⟩

/-- Where a resumed scan has what was open before. -/
def oldHook : Bool → Option Nat
  | true => some 0
  | false => none

/-- **A scan that starts with this open** and knows nothing else of what came before. Its first
phase collects the systems of the phase that was open. -/
def resumed (hooks : OpenHooks) : ScanState :=
  ⟨[], [lastPhase], oldHook hooks.chemistry, oldHook hooks.continuum, oldHook hooks.heating⟩

/-- A resumed scan after some lines, which are numbered from zero on. -/
def resume (hooks : OpenHooks) (lines : List (List Char)) : ScanState :=
  lines.zipIdx.foldl (fun state p => logStep state p.2 p.1) (resumed hooks)

theorem resume_snoc (hooks : OpenHooks) (lines : List (List Char)) (line : List Char) :
    resume hooks (lines ++ [line]) = logStep (resume hooks lines) lines.length line := by
  simp [resume, List.zipIdx_append]

end ScanState

/-! ## What is added -/

/-- **What is added to an outline**: stages, phases, and systems below the phase that was open. -/
structure Growth where
  stages : List Symbol
  phases : List Symbol
  systems : List Symbol

/-- What a resumed scan has found. -/
def ScanState.found (state : ScanState) : Growth :=
  ⟨state.stages, state.phases.tail, (state.phases.headD lastPhase).children⟩

/-- **What a text adds to a log that has this open.** -/
def growth (hooks : OpenHooks) (text : String) : Growth :=
  (ScanState.resume hooks (splitLines text.toList)).found

/-- The phases with more systems below the open one. -/
def belowOpen (heating : Option Nat) (systems phases : List Symbol) : List Symbol :=
  match heating with
  | none => phases
  | some k => phases.modify k (·.addChildren systems)

namespace Growth

/-- The same, `n` lines further down. -/
def shift (n : Nat) (g : Growth) : Growth :=
  ⟨Symbol.shiftAll n g.stages, Symbol.shiftAll n g.phases, Symbol.shiftAll n g.systems⟩

/-- **The outline with what is added**: stages at the end, phases at the end of those below the
root, and systems at the end of those below the open phase. -/
def addTo (g : Growth) (heating : Option Nat) : List Symbol → List Symbol
  | [] => []
  | root :: stages =>
    { root with children := belowOpen heating g.systems root.children ++ g.phases } ::
      (stages ++ g.stages)

end Growth

/-! ## A resumed scan on top of another -/

namespace ScanState

/-- A place among things counted from the old one at `first` on, which is followed by `count` more
before the new ones. -/
def placeOf (first count : Nat) : Nat → Nat
  | 0 => first
  | j + 1 => count + j

/-- **A resumed scan on top of the scan before it**, of `n` lines. -/
def graft (base : ScanState) (n : Nat) (r : ScanState) : ScanState where
  stages := base.stages ++ Symbol.shiftAll n r.stages
  phases := belowOpen base.heating (Symbol.shiftAll n r.found.systems) base.phases ++
    Symbol.shiftAll n r.found.phases
  chemistry := r.chemistry.map (placeOf (base.chemistry.getD 0) (base.stages.length + 1))
  continuum := r.continuum.map (placeOf (base.continuum.getD 0) (base.stages.length + 1))
  heating := r.heating.map (placeOf (base.heating.getD 0) base.phases.length)

/-- A resumed scan has its first phase, and points to it only if a phase was open before. -/
structure Resumes (base r : ScanState) : Prop where
  phases : r.phases ≠ []
  heating : r.heating = some 0 → ∃ k, base.heating = some k ∧ k < base.phases.length

end ScanState

section BelowOpen

variable {heating : Option Nat} {systems phases : List Symbol} {k : Nat} {s : Symbol}

@[simp] theorem length_belowOpen : (belowOpen heating systems phases).length = phases.length := by
  cases heating <;> simp [belowOpen]

@[simp] theorem belowOpen_nil : belowOpen heating [] phases = phases := by
  cases heating with
  | none => rfl
  | some k =>
    have hid : (fun s : Symbol => s.addChildren []) = id := by
      funext s
      cases s
      simp [Symbol.addChildren]
    rw [belowOpen, hid, List.modify_id]

/-- One more system for the open phase. -/
theorem belowOpen_snoc :
    belowOpen (some k) (systems ++ [s]) phases =
      (belowOpen (some k) systems phases).modify k (·.addChild s) := by
  simp only [belowOpen, List.modify_modify_eq]
  refine congrArg (phases.modify k) (funext fun phase => ?_)
  simp [Symbol.addChildren, Symbol.addChild]

theorem modify_append_of_lt {l : List Symbol} (h : k < l.length) (l' : List Symbol)
    (f : Symbol → Symbol) : (l ++ l').modify k f = l.modify k f ++ l' := by
  rw [List.modify_eq_take_drop, List.modify_eq_take_drop, List.take_append_of_le_length (by omega),
    List.drop_append_of_le_length (by omega)]
  cases hdrop : l.drop k with
  | nil =>
    rw [List.drop_eq_nil_iff] at hdrop
    omega
  | cons t rest => simp

theorem modify_append_add (l l' : List Symbol) (j : Nat) (f : Symbol → Symbol) :
    (l ++ l').modify (l.length + j) f = l ++ l'.modify j f :=
  List.modifyTailIdx_add ..

end BelowOpen

namespace ScanState

variable {base r : ScanState} {n : Nat}

/-- What a rule needs is open in the one scan if it is in the other. -/
theorem ready_graft (rule : LogRule) : rule.ready (base.graft n r) = rule.ready r := by
  cases rule <;> simp [LogRule.ready, graft]

theorem Resumes.fire (h : base.Resumes r) (rule : LogRule) (s : Symbol) :
    base.Resumes (rule.fire s r) := by
  cases rule with
  | initPhase =>
    refine ⟨by simp [LogRule.fire, addPhase], fun hzero => ?_⟩
    -- the new phase stands behind the first one, so that the scan does not point to that
    have hlength : r.phases.length ≠ 0 := fun h0 => h.phases (List.eq_nil_of_length_eq_zero h0)
    simp only [LogRule.fire] at hzero
    split at hzero
    next => exact absurd (Option.some.inj hzero) hlength
    next => cases hzero
  | initEnd => exact ⟨by simp [LogRule.fire, addPhase], h.heating⟩
  | heatingSystem =>
    cases hk : r.heating with
    | none => simpa [LogRule.fire, addSystem, hk] using h
    | some k =>
      rw [LogRule.fire, addSystem_eq hk]
      exact ⟨by simpa using h.phases, h.heating⟩
  | closeChemistry | closeContinuum | spectrum | openChemistry | openContinuum | lineTransfer =>
    exact ⟨h.phases, h.heating⟩

/-- A system goes below the same phase in both scans. -/
theorem graft_addSystem (h : base.Resumes r) (hready : r.heating.isSome) (s : Symbol) :
    (base.graft n r).addSystem (s.shift n) = base.graft n (r.addSystem s) := by
  obtain ⟨j, hj⟩ := Option.isSome_iff_exists.mp hready
  obtain ⟨first, rest, hphases⟩ := List.exists_cons_of_ne_nil h.phases
  have hhook : (base.graft n r).heating =
      some (placeOf (base.heating.getD 0) base.phases.length j) := by
    simp [graft, hj]
  rw [addSystem_eq hhook, addSystem_eq hj]
  cases j with
  | zero =>
    -- the phase of before, which is among those of the earlier scan
    obtain ⟨k, hk, hlt⟩ := h.heating hj
    simp only [graft, found, hphases, hk, placeOf, List.modify_zero_cons, List.headD_cons,
      List.tail_cons, Option.getD_some, Symbol.addChild, Symbol.shiftAll_append, Symbol.shiftAll]
    rw [modify_append_of_lt (by simpa using hlt), belowOpen_snoc]
    rfl
  | succ j =>
    -- a new phase, which comes behind all of these
    have hplace : placeOf (base.heating.getD 0) base.phases.length (j + 1) =
        (belowOpen base.heating (Symbol.shiftAll n first.children) base.phases).length + j := by
      simp [placeOf]
    simp only [graft, found, hphases, List.modify_succ_cons, List.headD_cons, List.tail_cons,
      Symbol.shiftAll_modify]
    rw [hplace, modify_append_add]

/-- **A rule does the same to both scans.** -/
theorem graft_fire (h : base.Resumes r) {rule : LogRule} (hready : rule.ready r) (s : Symbol) :
    rule.fire (s.shift n) (base.graft n r) = base.graft n (rule.fire s r) := by
  obtain ⟨first, rest, hphases⟩ := List.exists_cons_of_ne_nil h.phases
  cases rule with
  | heatingSystem => exact graft_addSystem h hready s
  | initPhase =>
    simp only [LogRule.fire, addPhase, graft, found, hphases, Symbol.title_shift]
    by_cases htitle : s.title = heatingPhaseTitle <;>
      simp [htitle, placeOf, Symbol.shiftAll]
  | initEnd =>
    simp [LogRule.fire, addPhase, graft, found, hphases, Symbol.shiftAll]
  | openChemistry | openContinuum =>
    simp [LogRule.fire, addStage, graft, found, placeOf, Symbol.shiftAll]
    omega
  | closeChemistry | closeContinuum | spectrum | lineTransfer =>
    simp [LogRule.fire, addStage, graft, found, Symbol.shiftAll]

/-- **A line does the same to both scans.** -/
theorem graft_logStep (h : base.Resumes r) (n i : Nat) (line : List Char) :
    logStep (base.graft n r) (n + i) line = base.graft n (logStep r i line) ∧
      base.Resumes (logStep r i line) := by
  obtain ⟨rule, title, hready, hread, hstep⟩ | ⟨hnone, hstep⟩ := logStep_cases r i line
  · rw [hstep]
    refine ⟨?_, h.fire rule _⟩
    rw [← graft_fire h hready, Symbol.shift_symbol]
    exact logStep_of_reads? (by rwa [ready_graft]) hread (n + i)
  · rw [hstep]
    refine ⟨logStep_of_none (fun rule hready => ?_) (n + i), h⟩
    rw [ready_graft] at hready
    exact hnone rule hready

/-- A scan is resumed where it stopped. -/
theorem graft_resumed (hbase : base.Consistent) (n : Nat) :
    base.graft n (resumed base.openHooks) = base ∧ base.Resumes (resumed base.openHooks) := by
  have hplace : ∀ (hook : Option Nat) (count : Nat),
      (oldHook hook.isSome).map (placeOf (hook.getD 0) count) = hook := by
    intro hook count
    cases hook <;> rfl
  refine ⟨?_, by simp [resumed], fun hzero => ?_⟩
  · simp only [graft, resumed, found, openHooks, hplace, lastPhase, Symbol.leaf, List.headD_cons,
      List.tail_cons, Symbol.shiftAll, belowOpen_nil, List.append_nil]
  · cases hk : base.heating with
    | none => simp [resumed, openHooks, oldHook, hk] at hzero
    | some k =>
      obtain ⟨phase, hphase, -⟩ := hbase.exists_phase hk
      exact ⟨k, rfl, (List.getElem?_eq_some_iff.mp hphase).1⟩

end ScanState

/-! ## The scan of a longer log -/

/-- **A scan goes on as the resumed scan does.** -/
theorem logState_append (lines more : List (List Char)) :
    let base := logState lines
    logState (lines ++ more) = base.graft lines.length (.resume base.openHooks more) ∧
      base.Resumes (.resume base.openHooks more) := by
  intro base
  -- induction on the lines that are added, from their end
  induction more using List.reverseRecOn with
  | nil =>
    obtain ⟨hgraft, hresumes⟩ :=
      ScanState.graft_resumed (logState_consistent lines) lines.length
    rw [List.append_nil]
    exact ⟨hgraft.symm, hresumes⟩
  | append_singleton more line ih =>
    obtain ⟨hstate, hresumes⟩ := ih
    obtain ⟨hstep, hnext⟩ := ScanState.graft_logStep hresumes lines.length more.length line
    rw [← List.append_assoc, logState_snoc, hstate, List.length_append, ScanState.resume_snoc]
    exact ⟨hstep, hnext⟩

theorem symbols_graft (base : ScanState) (n : Nat) (r : ScanState) :
    (base.graft n r).symbols = (r.found.shift n).addTo base.heating base.symbols := rfl

theorem logOutline_none (text : String) :
    logOutline text none = (logState (splitLines text.toList)).symbols :=
  (logOutline_cases text none).1 (CancelToken.outlasts_none _)

theorem logOutline_addTo (a b : String) :
    let lines := splitLines a.toList
    let state := logState lines
    logOutline (a ++ "\n" ++ b) none =
      ((growth state.openHooks b).shift lines.length).addTo state.heating (logOutline a none) := by
  intro lines state
  have hlines : splitLines (a ++ "\n" ++ b).toList = lines ++ splitLines b.toList := by
    rw [← splitLines_append]
    simp
  obtain ⟨hstate, -⟩ := logState_append lines (splitLines b.toList)
  rw [logOutline_none, logOutline_none, hlines, hstate, symbols_graft]
  rfl

/-- **The outline of a longer log.** What a text adds to a log goes to the end of the stages, to the
end of the phases and to the end of the systems below the heating and cooling phase, if it is open
after the log; all else stays as it is. What is added is told by the text and by what is open after
the log, so two logs with the same open get the same, each as many lines further down as it has. -/
theorem logOutline_append (a b : String) :
    logOutline a none = (logState (splitLines a.toList)).symbols ∧
    let lines := splitLines a.toList
    let state := logState lines
    let added := growth state.openHooks b
    logOutline (a ++ "\n" ++ b) none =
      (added.shift lines.length).addTo state.heating (logOutline a none) ∧
    (∀ k, state.heating = some k →
      ∃ phase, state.phases[k]? = some phase ∧ phase.title = "INIT_HEATCOOL") ∧
    ∀ a' : String,
      let lines' := splitLines a'.toList
      let state' := logState lines'
      state'.openHooks = state.openHooks →
        logOutline (a' ++ "\n" ++ b) none =
          (added.shift lines'.length).addTo state'.heating (logOutline a' none) := by
  refine ⟨logOutline_none a, ?_⟩
  intro lines state added
  refine ⟨logOutline_addTo a b, ?_, ?_⟩
  · exact fun k hk => (logState_consistent lines).exists_phase hk
  · intro a' lines' state' hopen
    have hadded : added = growth state'.openHooks b := by
      rw [hopen]
    rw [hadded]
    exact logOutline_addTo a' b

/-- Two logs that stop in the heating and cooling phase and in a chemistry section, one with more
lines than the other, go on with a system, the end of the section, and another phase. -/
theorem logOutline_append_twice :
    let a := " INIT_HEATCOOL: x\n CHEMISTRY AND ENERGY BALANCE ..."
    let a' := " INIT_DUST: x\n CHEMISTRY AND ENERGY BALANCE ...\n INIT_HEATCOOL: x"
    let b := "   INIT SYS CO ...\n CHEMISTRY AND ENERGY BALANCE DONE\n INIT_HEATCOOL: again"
    let state := logState (splitLines a.toList)
    let state' := logState (splitLines a'.toList)
    let added := growth state.openHooks b
    state.heating = some 0 ∧ state'.heating = some 1 ∧
      state'.openHooks = state.openHooks ∧
      (added.stages.map Symbol.head, added.phases.map Symbol.head, added.systems.map Symbol.head) =
        ([("CHEMISTRY END", 1)], [("INIT_HEATCOOL", 2)], [("CO", 0)]) ∧
      logOutline (a ++ "\n" ++ b) none = (added.shift 2).addTo (some 0) (logOutline a none) ∧
      logOutline (a' ++ "\n" ++ b) none = (added.shift 3).addTo (some 1) (logOutline a' none) := by
  intro a a' b state state' added
  have hstate : (state.heating, state.openHooks) = (some 0, ⟨true, false, true⟩) := by
    decide +kernel
  have hstate' : (state'.heating, state'.openHooks) = (some 1, ⟨true, false, true⟩) := by
    decide +kernel
  obtain ⟨hheating, hhooks⟩ := Prod.mk.inj hstate
  obtain ⟨hheating', hhooks'⟩ := Prod.mk.inj hstate'
  have hopen : state'.openHooks = state.openHooks := hhooks'.trans hhooks.symm
  have hadded : added = growth ⟨true, false, true⟩ b := congrArg (growth · b) hhooks
  have hlength : (splitLines a.toList).length = 2 := by decide +kernel
  have hlength' : (splitLines a'.toList).length = 3 := by decide +kernel
  obtain ⟨-, hlog, -, hother⟩ := logOutline_append a b
  refine ⟨hheating, hheating', hopen, ?_, ?_, ?_⟩
  · rw [hadded]
    decide +kernel
  · rw [← hlength, ← hheating]
    exact hlog
  · rw [← hlength', ← hheating']
    exact hother a' hopen

end DiskLens
