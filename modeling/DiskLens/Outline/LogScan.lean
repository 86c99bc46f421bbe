import DiskLens.Outline.Cancellation
import DiskLens.Outline.InitLine
import DiskLens.Outline.Symbol

/-!
# Outlines of run logs

A run prints loosely structured progress text. One pass over its lines rebuilds the stages of the
run: a root for the initialisation with its phases, the systems set up in the heating and cooling
phase below that phase, and the later stages beside the root. Chemistry and continuum radiative
transfer have a start and an end; an end counts only while a start is open. A stage still open when
the log stops stays as it is.

* `ScanState`: the symbols so far and the three open hooks.
* `LogRule`: what a line can do; rules of one group exclude each other on a line.
* `applyRules`: one line through a table of rules.
* **`logOutline`**: the outline of a run log.
-/

namespace DiskLens

/-! ## Scan states -/

/-- **The state of a scan.** `chemistry` and `continuum` point to the open start among the top-level
symbols, counted from the root; `heating` points to the open heating and cooling phase among the
phases. -/
structure ScanState where
  stages : List Symbol
  phases : List Symbol
  chemistry : Option Nat
  continuum : Option Nat
  heating : Option Nat
deriving Repr

namespace ScanState

/-- Nothing has been read. -/
def start : ScanState := ⟨[], [], none, none, none⟩

/-- The root of an outline: the initialisation, at the start of the log and without width. -/
def root (phases : List Symbol) : Symbol :=
  ⟨"INIT", "initialisation", .stage, ⟨⟨0, 0⟩, ⟨0, 0⟩⟩, phases⟩

/-- The top-level symbols: the root and the stages after it. -/
def symbols (state : ScanState) : List Symbol := root state.phases :: state.stages

/-- One more stage. -/
def addStage (state : ScanState) (s : Symbol) : ScanState :=
  { state with stages := state.stages ++ [s] }

/-- One more phase of the initialisation. -/
def addPhase (state : ScanState) (s : Symbol) : ScanState :=
  { state with phases := state.phases ++ [s] }

/-- One more system below the open heating and cooling phase. -/
def addSystem (state : ScanState) (s : Symbol) : ScanState :=
  match state.heating with
  | none => state
  | some k => { state with phases := state.phases.modify k (·.addChild s) }

/-- The open heating and cooling phase. -/
def heatingPhase? (state : ScanState) : Option Symbol := state.heating.bind (state.phases[·]?)

end ScanState

/-! ## Rules -/

/-- What a line can do to a scan. -/
inductive LogRule
  | closeChemistry
  | closeContinuum
  | initPhase
  | heatingSystem
  | initEnd
  | spectrum
  | openChemistry
  | openContinuum
  | lineTransfer
deriving DecidableEq, Repr

/-- Rules that exclude each other on one line. -/
inductive RuleGroup
  | close
  | initPhase
  | heatingSystem
  | milestone
deriving DecidableEq, Repr

/-- The phase that collects heating and cooling systems. -/
def heatingPhaseTitle : String := "INIT_HEATCOOL"

/-- The line starts with the marker. -/
def startsWith (marker : String) (line : List Char) : Bool := marker.toList.isPrefixOf line

namespace LogRule

/-- The name of a rule. -/
def name : LogRule → String
  | closeChemistry => "close_chemistry"
  | closeContinuum => "close_continuum_rt"
  | initPhase => "init_phase"
  | heatingSystem => "heatcool_system"
  | initEnd => "init_end"
  | spectrum => "sed"
  | openChemistry => "chemistry_start"
  | openContinuum => "continuum_rt_start"
  | lineTransfer => "line_transfer"

/-- The group of a rule. -/
def group : LogRule → RuleGroup
  | closeChemistry | closeContinuum => .close
  | initPhase => .initPhase
  | heatingSystem => .heatingSystem
  | initEnd | spectrum | openChemistry | openContinuum | lineTransfer => .milestone

/-- The text at the start of the lines a rule looks for; names are recognised by `initPhase?` and
`initSystem?` instead. -/
def marker : LogRule → String
  | closeChemistry => " CHEMISTRY AND ENERGY BALANCE DONE"
  | closeContinuum => " CONTINUUM RADIATIVE TRANSFER DONE"
  | initPhase | heatingSystem => ""
  | initEnd => " total INIT CPU time"
  | spectrum => " CALCULATING MONOCHROMATIC FACE-ON SED ..."
  | openChemistry => " CHEMISTRY AND ENERGY BALANCE ..."
  | openContinuum => " SOLUTION OF CONTINUUM RADIATIVE TRANSFER ..."
  | lineTransfer => " Starting line ray-tracing..."

/-- The title of the symbol that a rule makes of a line, if the rule applies to the line in this
state. -/
def title? (rule : LogRule) (state : ScanState) (line : List Char) : Option String :=
  match rule with
  | closeChemistry =>
    if state.chemistry.isSome ∧ startsWith closeChemistry.marker line then some "CHEMISTRY END"
    else none
  | closeContinuum =>
    if state.continuum.isSome ∧ startsWith closeContinuum.marker line then some "CONTINUUM RT END"
    else none
  | initPhase => (initPhase? line).map String.ofList
  | heatingSystem => if state.heating.isSome then (initSystem? line).map String.ofList else none
  | initEnd => if startsWith initEnd.marker line then some "INIT END" else none
  | spectrum => if startsWith spectrum.marker line then some "SED" else none
  | openChemistry => if startsWith openChemistry.marker line then some "CHEMISTRY START" else none
  | openContinuum =>
    if startsWith openContinuum.marker line then some "CONTINUUM RT START" else none
  | lineTransfer => if startsWith lineTransfer.marker line then some "LINE TRANSFER" else none

/-- The detail of the symbol that a rule makes. -/
def detail : LogRule → String
  | closeChemistry | openChemistry => "chemistry"
  | closeContinuum | openContinuum => "continuum radiative transfer"
  | initPhase => "init phase"
  | heatingSystem => "heating/cooling system"
  | initEnd => "init CPU time"
  | spectrum => "face-on SED"
  | lineTransfer => "line ray-tracing"

/-- The kind of the symbol that a rule makes. -/
def kind : LogRule → SymbolKind
  | initPhase | initEnd => .phase
  | heatingSystem => .system
  | _ => .stage

/-- The state after a rule has made its symbol. -/
def fire (rule : LogRule) (s : Symbol) (state : ScanState) : ScanState :=
  match rule with
  | closeChemistry => { state.addStage s with chemistry := none }
  | closeContinuum => { state.addStage s with continuum := none }
  | initPhase =>
    { state.addPhase s with
      heating := if s.title = heatingPhaseTitle then some state.phases.length else none }
  | heatingSystem => state.addSystem s
  | initEnd => state.addPhase s
  | spectrum | lineTransfer => state.addStage s
  | openChemistry => { state.addStage s with chemistry := some (state.stages.length + 1) }
  | openContinuum => { state.addStage s with continuum := some (state.stages.length + 1) }

/-- One rule on one line: the state after it if the rule applies. -/
def apply (rule : LogRule) (state : ScanState) (lineNo : Int) (line : List Char) :
    Except PositionError (Option ScanState) :=
  match rule.title? state line with
  | none => .ok none
  | some title => do
    let range ← Range.ofLine lineNo line
    pure (some (rule.fire (.leaf title rule.detail rule.kind range) state))

end LogRule

/-- The rules in the order in which a scan tries them. -/
def logRules : List LogRule :=
  [.closeChemistry, .closeContinuum, .initPhase, .heatingSystem, .initEnd, .spectrum,
    .openChemistry, .openContinuum, .lineTransfer]

/-- The rules that are left on a line, after those in `fired`. -/
def applyFrom (lineNo : Int) (line : List Char) (fired : List LogRule) (state : ScanState) :
    List LogRule → Except PositionError (List LogRule × ScanState)
  | [] => .ok (fired, state)
  | rule :: rules =>
    if fired.any (·.group = rule.group) then applyFrom lineNo line fired state rules
    else match rule.apply state lineNo line with
      | .error e => .error e
      | .ok none => applyFrom lineNo line fired state rules
      | .ok (some next) => applyFrom lineNo line (fired ++ [rule]) next rules

/-- **One line through a table of rules**: those that fired and the state after them. -/
def applyRules (rules : List LogRule) (state : ScanState) (lineNo : Int) (line : List Char) :
    Except PositionError (List LogRule × ScanState) :=
  applyFrom lineNo line [] state rules

/-! ## The scan -/

/-- The state after one more line of a log. A line of a document has a number from zero on, so the
rules give no error. -/
def logStep (state : ScanState) (n : Nat) (line : List Char) : ScanState :=
  match applyRules logRules state n line with
  | .ok (_, next) => next
  | .error _ => state

/-- The outline of a run log and the token after the scan. -/
def logScan (text : List Char) (token : Option CancelToken) : List Symbol × Option CancelToken :=
  let (state, token) := scanLines logStep token .start 0 (splitLines text)
  ((state.map ScanState.symbols).getD [], token)

/-- **The outline of a run log**, empty if the scan was cancelled. -/
def logOutline (text : String) (token : Option CancelToken) : List Symbol :=
  (logScan text.toList token).1

end DiskLens
