import DiskLens.Proofs.Outline.Phases
import DiskLens.Proofs.Outline.RuleTables
import DiskLens.Proofs.Outline.Sections

/-!
# Hooks of a scan

The hooks of a scan say nothing that its symbols do not say: a section is open if its last start or
end is a start, and the heating and cooling phase is open if no other phase was named after it. This
holds after any lines with any numbers, through any tables of rules, so the phase of a system is
always there.

* `LastIs`: the last title of a kind; `lastIs_snoc`: one more title.
* `HookTold`: a hook is told by the titles; `HookTold.snoc`: one more title.
* **`ScanState.Consistent`**: the hooks are told by the symbols, and only the heating and cooling
  phases have systems; `ScanState.Consistent.fire`: one rule.
* `ScanState.after`: the state after some lines through tables of rules.
* **`hooks_after_calls`**: every such state is consistent, and no rule misses a phase.
-/

namespace DiskLens

/-! ## The last title of a kind -/

/-- The last title with a property is `opening`, at index `k`. -/
def LastIs (isMark : String → Prop) (opening : String) (titles : List String) (k : Nat) : Prop :=
  titles[k]? = some opening ∧ isMark opening ∧
    ∀ j title, k < j → titles[j]? = some title → ¬ isMark title

/-- A hook points to the last title with a property as long as that title is `opening`. -/
def HookTold (isMark : String → Prop) (opening : String) (titles : List String)
    (hook : Option Nat) : Prop :=
  ∀ k, hook = some k ↔ LastIs isMark opening titles k

section Titles

variable {isMark : String → Prop} {opening title : String} {titles : List String} {k : Nat}
  {hook : Option Nat}

theorem LastIs.lt_length (h : LastIs isMark opening titles k) : k < titles.length :=
  (List.getElem?_eq_some_iff.mp h.1).1

/-- The last title with a property is the new one, or the one of before. -/
theorem lastIs_snoc :
    LastIs isMark opening (titles ++ [title]) k ↔
      (k = titles.length ∧ title = opening ∧ isMark title) ∨
        (LastIs isMark opening titles k ∧ ¬ isMark title) := by
  have hlast : (titles ++ [title])[titles.length]? = some title := List.getElem?_concat_length ..
  constructor
  · rintro ⟨hk, hmark, hafter⟩
    rcases Nat.lt_trichotomy k titles.length with hlt | rfl | hgt
    · rw [List.getElem?_append_left hlt] at hk
      refine .inr ⟨⟨hk, hmark, fun j t hj ht => hafter j t hj ?_⟩, hafter _ _ hlt hlast⟩
      rw [List.getElem?_append_left (List.getElem?_eq_some_iff.mp ht).1]
      exact ht
    · obtain rfl : title = opening := Option.some.inj (hlast.symm.trans hk)
      exact .inl ⟨rfl, rfl, hmark⟩
    · rw [List.getElem?_eq_none (by simp; omega)] at hk
      cases hk
  · rintro (⟨rfl, rfl, hmark⟩ | ⟨h, hno⟩)
    · refine ⟨hlast, hmark, fun j t hj ht => ?_⟩
      rw [List.getElem?_eq_none (by simp; omega)] at ht
      cases ht
    · refine ⟨by rw [List.getElem?_append_left h.lt_length, h.1], h.2.1, fun j t hj ht => ?_⟩
      rcases Nat.lt_trichotomy j titles.length with hlt | rfl | hgt
      · rw [List.getElem?_append_left hlt] at ht
        exact h.2.2 j t hj ht
      · obtain rfl : title = t := Option.some.inj (hlast.symm.trans ht)
        exact hno
      · rw [List.getElem?_eq_none (by simp; omega)] at ht
        cases ht

/-- A title with the property takes the hook, or frees it if it is not the opening one. -/
theorem HookTold.snoc_mark (hmark : isMark title) :
    HookTold isMark opening (titles ++ [title])
      (if title = opening then some titles.length else none) := by
  intro k
  rw [lastIs_snoc]
  by_cases hopen : title = opening
  · simp [hopen, hopen ▸ hmark, eq_comm]
  · simp [hopen, hmark]

/-- Any other title leaves the hook alone. -/
theorem HookTold.snoc (h : HookTold isMark opening titles hook) (hno : ¬ isMark title) :
    HookTold isMark opening (titles ++ [title]) hook := by
  intro k
  rw [lastIs_snoc, h k]
  simp [hno]

theorem HookTold.nil (hno : ∀ title ∈ titles, ¬ isMark title) :
    HookTold isMark opening titles none := by
  intro k
  refine iff_of_false (by simp) fun h => ?_
  exact hno opening (List.mem_of_getElem? h.1) h.2.1

end Titles

/-! ## Consistent states -/

/-- The titles that the hook of a section goes by. -/
def LogSection.marks (sec : LogSection) (title : String) : Prop :=
  title = sec.opener.heading ∨ title = sec.closer.heading

instance (sec : LogSection) (title : String) : Decidable (sec.marks title) :=
  inferInstanceAs (Decidable (_ ∨ _))

/-- **The hooks are told by the symbols, and only heating and cooling phases have systems.** -/
structure ScanState.Consistent (state : ScanState) : Prop where
  sections : ∀ sec : LogSection,
    HookTold sec.marks sec.opener.heading (state.symbols.map Symbol.title) (sec.hook state)
  heating : HookTold (· ≠ LogRule.initEnd.heading) heatingPhaseTitle
    (state.phases.map Symbol.title) state.heating
  stage_leaf : ∀ s ∈ state.stages, s.children = []
  phase_children : ∀ phase ∈ state.phases, phase.children ≠ [] → phase.title = heatingPhaseTitle
  system_leaf : ∀ phase ∈ state.phases, ∀ s ∈ phase.children, s.children = []

/-! ## One rule -/

namespace LogRule

/-- A phase is never titled as the end of the initialisation: its fifth character is no space. -/
theorem ne_initEnd_of_initPhase {line : List Char} {title : String}
    (h : initPhase.reads? line = some title) : title ≠ initEnd.heading := by
  obtain ⟨token, htoken, rfl⟩ := Option.map_eq_some_iff.mp h
  obtain ⟨stem, name, _, _, -, hstem, -, -, -, rfl⟩ := initPhase?_parts htoken
  have hlength : stem.length = 5 := length_of_map_foldCase hstem
  intro heq
  have hchars : stem ++ name = initEnd.heading.toList := by
    rw [← heq, String.toList_ofList]
  have htake : stem = initEnd.heading.toList.take 5 := by
    rw [← hchars, ← hlength, List.take_left]
  rw [htake] at hstem
  exact absurd hstem (by decide)

theorem phases_fire_of_stage {rule : LogRule} (hkind : rule.kind = .stage) (s : Symbol)
    (state : ScanState) :
    (rule.fire s state).phases = state.phases ∧ (rule.fire s state).heating = state.heating := by
  cases rule with
  | initPhase | heatingSystem | initEnd => cases hkind
  | closeChemistry | closeContinuum | spectrum | openChemistry | openContinuum | lineTransfer =>
    exact ⟨rfl, rfl⟩

end LogRule

/-- The hook of a section goes by the title of the new stage. -/
theorem LogSection.hook_fire_of_stage (sec : LogSection) {rule : LogRule}
    (hkind : rule.kind = .stage) (s : Symbol) (state : ScanState) :
    sec.hook (rule.fire s state) =
      if sec.marks rule.heading then
        if rule.heading = sec.opener.heading then some (state.stages.length + 1) else none
      else sec.hook state := by
  cases rule with
  | initPhase | heatingSystem | initEnd => cases hkind
  | closeChemistry | closeContinuum | spectrum | openChemistry | openContinuum | lineTransfer =>
    cases sec <;> rfl

namespace Symbol

theorem map_title_modify (phases : List Symbol) (k : Nat) (child : Symbol) :
    (phases.modify k (·.addChild child)).map title = phases.map title := by
  have hheads := congrArg (List.map Prod.fst) (map_head_modify phases k child)
  rwa [List.map_map, List.map_map] at hheads

/-- A child more at one place: the other symbols are as before. -/
theorem mem_modify_addChild {phases : List Symbol} {k : Nat} {child phase : Symbol}
    (h : phase ∈ phases.modify k (·.addChild child)) :
    phase ∈ phases ∨ ∃ old, phases[k]? = some old ∧ phase = old.addChild child := by
  obtain ⟨j, hj⟩ := List.getElem?_of_mem h
  rw [List.getElem?_modify] at hj
  obtain ⟨old, hold, rfl⟩ := Option.map_eq_some_iff.mp hj
  by_cases hk : k = j
  · subst hk
    exact .inr ⟨old, hold, if_pos rfl⟩
  · rw [if_neg hk]
    exact .inl (List.mem_of_getElem? hold)

end Symbol

theorem ScanState.mem_phases_addPhase {state : ScanState} {s phase : Symbol} :
    phase ∈ (state.addPhase s).phases ↔ phase ∈ state.phases ∨ phase = s := by
  simp [addPhase]

/-- A system goes below the phase that the hook points to. -/
theorem ScanState.addSystem_eq {state : ScanState} {k : Nat} (hk : state.heating = some k)
    (s : Symbol) :
    state.addSystem s = { state with phases := state.phases.modify k (·.addChild s) } := by
  rw [addSystem, hk]

namespace ScanState.Consistent

variable {state : ScanState} {rule : LogRule} {s : Symbol}

theorem start : ScanState.start.Consistent where
  sections sec := by
    have hhook : sec.hook .start = none := by cases sec <;> rfl
    rw [hhook]
    refine .nil fun title htitle => ?_
    obtain rfl : title = "INIT" := List.mem_singleton.mp htitle
    cases sec <;> decide
  heating := .nil fun _ h => nomatch h
  stage_leaf _ h := nomatch h
  phase_children _ h := nomatch h
  system_leaf _ h := nomatch h

/-- The phase that a hook points to. -/
theorem exists_phase (h : state.Consistent) {k : Nat} (hk : state.heating = some k) :
    ∃ phase, state.phases[k]? = some phase ∧ phase.title = heatingPhaseTitle := by
  have htitle := ((h.heating k).mp hk).1
  rw [List.getElem?_map] at htitle
  exact Option.map_eq_some_iff.mp htitle

/-- **No rule misses its phase.** -/
theorem not_lacksPhase (h : state.Consistent) (hready : rule.ready state) :
    ¬ rule.lacksPhase state := by
  intro hlacks
  obtain ⟨rfl, hnone⟩ : rule = .heatingSystem ∧ state.heatingPhase? = none := by
    simpa [LogRule.lacksPhase] using hlacks
  obtain ⟨k, hk⟩ := Option.isSome_iff_exists.mp hready
  obtain ⟨phase, hphase, -⟩ := h.exists_phase hk
  rw [heatingPhase?, hk, Option.bind_some, hphase] at hnone
  cases hnone

/-- A new stage. -/
theorem stage (h : state.Consistent) (hkind : rule.kind = .stage) (htitle : s.title = rule.heading)
    (hleaf : s.children = []) : (rule.fire s state).Consistent := by
  have hstages : (rule.fire s state).stages = state.stages ++ [s] := by
    rw [LogRule.stages_fire, if_pos hkind]
  obtain ⟨hphases, hheating⟩ := LogRule.phases_fire_of_stage hkind s state
  have htitles : (rule.fire s state).symbols.map Symbol.title =
      state.symbols.map Symbol.title ++ [rule.heading] := by
    simp [symbols, root, hstages, htitle]
  have hlength : (state.symbols.map Symbol.title).length = state.stages.length + 1 := by
    simp [symbols]
  refine ⟨fun sec => ?_, ?_, fun t ht => ?_, ?_, ?_⟩
  · rw [htitles, sec.hook_fire_of_stage hkind]
    by_cases hmark : sec.marks rule.heading
    · rw [if_pos hmark, ← hlength]
      exact .snoc_mark hmark
    · rw [if_neg hmark]
      exact (h.sections sec).snoc hmark
  · rw [hphases, hheating]
    exact h.heating
  · rw [hstages, List.mem_append, List.mem_singleton] at ht
    rcases ht with ht | rfl
    · exact h.stage_leaf t ht
    · exact hleaf
  · rw [hphases]
    exact h.phase_children
  · rw [hphases]
    exact h.system_leaf

/-- A new phase, and a hook that goes by its title. -/
theorem addPhase (h : state.Consistent) (hleaf : s.children = []) {hook : Option Nat}
    (hhook : HookTold (· ≠ LogRule.initEnd.heading) heatingPhaseTitle
      (state.phases.map Symbol.title ++ [s.title]) hook) :
    { state.addPhase s with heating := hook }.Consistent := by
  refine ⟨fun sec => ?_, ?_, h.stage_leaf, fun phase hphase hne => ?_, fun phase hphase t ht => ?_⟩
  · cases sec
    · exact h.sections .chemistry
    · exact h.sections .continuum
  · simpa [ScanState.addPhase] using hhook
  · rcases mem_phases_addPhase.mp hphase with hold | rfl
    · exact h.phase_children phase hold hne
    · exact absurd hleaf hne
  · rcases mem_phases_addPhase.mp hphase with hold | rfl
    · exact h.system_leaf phase hold t ht
    · rw [hleaf] at ht
      cases ht

/-- A new system below the open phase. -/
theorem addSystem (h : state.Consistent) (hleaf : s.children = []) {k : Nat}
    (hk : state.heating = some k) : (state.addSystem s).Consistent := by
  obtain ⟨phase, hphase, htitle⟩ := h.exists_phase hk
  rw [addSystem_eq hk]
  refine ⟨fun sec => ?_, ?_, h.stage_leaf, fun p hp hne => ?_, fun p hp t ht => ?_⟩
  · cases sec
    · exact h.sections .chemistry
    · exact h.sections .continuum
  · rw [Symbol.map_title_modify]
    exact h.heating
  · rcases Symbol.mem_modify_addChild hp with hold | ⟨old, hold, rfl⟩
    · exact h.phase_children p hold hne
    · obtain rfl := Option.some.inj (hphase.symm.trans hold)
      exact htitle
  · rcases Symbol.mem_modify_addChild hp with hold | ⟨old, hold, rfl⟩
    · exact h.system_leaf p hold t ht
    · rcases List.mem_append.mp ht with ht | ht
      · exact h.system_leaf old (List.mem_of_getElem? hold) t ht
      · rw [List.mem_singleton.mp ht]
        exact hleaf

/-- **One rule keeps a state consistent**, whatever the range of its line. -/
theorem fire (h : state.Consistent) {line : List Char} {title : String}
    (hready : rule.ready state) (hread : rule.reads? line = some title) (range : Range) :
    (rule.fire (.leaf title rule.detail rule.kind range) state).Consistent := by
  cases rule with
  | initPhase =>
    have hlength : (state.phases.map Symbol.title).length = state.phases.length :=
      List.length_map ..
    refine h.addPhase rfl ?_
    rw [← hlength]
    exact .snoc_mark (LogRule.ne_initEnd_of_initPhase hread)
  | initEnd =>
    obtain ⟨-, rfl⟩ := (LogRule.reads?_eq_some_iff rfl).mp hread
    exact h.addPhase rfl (h.heating.snoc (not_not_intro rfl))
  | heatingSystem =>
    obtain ⟨k, hk⟩ := Option.isSome_iff_exists.mp hready
    exact h.addSystem rfl hk
  | closeChemistry | closeContinuum | spectrum | openChemistry | openContinuum | lineTransfer =>
    exact h.stage rfl ((LogRule.reads?_eq_some_iff rfl).mp hread).2.symm rfl

/-- A line through a table of rules. -/
theorem tryRules (h : state.Consistent) (rules : List LogRule) (n : Int) (line : List Char) :
    (tryRules rules state n line).2.Consistent := by
  obtain ⟨rule, -, title, htitle, hrun⟩ | ⟨-, hrun⟩ := tryRules_cases rules state n line
  · obtain ⟨hready, hread⟩ := LogRule.title?_eq_some_iff.mp htitle
    rw [hrun]
    split
    next => exact h
    next =>
      split
      next => exact h
      next range _ => exact h.fire hready hread range
  · rw [hrun]
    exact h

end ScanState.Consistent

/-! ## Any lines through any tables -/

/-- A line, the number it is given, and the rules it goes through. -/
structure RuleCall where
  rules : List LogRule
  lineNo : Int
  line : List Char

/-- What a call does to a state. -/
def RuleCall.run (call : RuleCall) (state : ScanState) :
    Except RuleFault (List LogRule) × ScanState :=
  tryRules call.rules state call.lineNo call.line

/-- **The state after some calls**, those that failed included. -/
def ScanState.after (calls : List RuleCall) : ScanState :=
  calls.foldl (fun state call => (call.run state).2) .start

theorem ScanState.after_consistent (calls : List RuleCall) :
    (ScanState.after calls).Consistent := by
  induction calls using List.reverseRecOn with
  | nil => exact .start
  | append_singleton calls call ih =>
    rw [ScanState.after, List.foldl_append]
    exact ih.tryRules call.rules call.lineNo call.line

/-- **The hooks after any calls.** The first symbol is the root, without width. A section is open if
the last symbol that is its start or its end is a start, and the hook points there; the heating and
cooling phase is open if it is the last phase, ends left aside. Nothing else has symbols below it
than the root and the heating and cooling phases. So no call misses the phase of a system, and each
does what the rules of a scan say. -/
theorem hooks_after_calls (calls : List RuleCall) :
    let state := ScanState.after calls
    (∃ root, state.symbols[0]? = some root ∧ root.title = "INIT" ∧
      root.range = ⟨⟨0, 0⟩, ⟨0, 0⟩⟩ ∧ root.children = state.phases) ∧
    (∀ (sec : LogSection) (k : Nat), sec.hook state = some k ↔
      LastIs (fun title => title = sec.opener.heading ∨ title = sec.closer.heading)
        sec.opener.heading (state.symbols.map Symbol.title) k) ∧
    (∀ k : Nat, state.heating = some k ↔
      LastIs (· ≠ "INIT END") "INIT_HEATCOOL" (state.phases.map Symbol.title) k) ∧
    ((∀ s ∈ state.stages, s.children = []) ∧
      ∀ phase ∈ state.phases, (phase.children ≠ [] → phase.title = "INIT_HEATCOOL") ∧
        ∀ s ∈ phase.children, s.children = []) ∧
    ∀ call : RuleCall, (call.run state).1 ≠ .error .noPhase ∧
      call.run state = match applyRules call.rules state call.lineNo call.line with
        | .error e => (.error (.position e), state)
        | .ok (fired, next) => (.ok fired, next) := by
  intro state
  have h : state.Consistent := ScanState.after_consistent calls
  refine ⟨⟨_, rfl, rfl, rfl, rfl⟩, h.sections, h.heating, ⟨h.stage_leaf, fun phase hphase =>
    ⟨h.phase_children phase hphase, h.system_leaf phase hphase⟩⟩, fun call => ?_⟩
  have hrun : call.run state = match applyRules call.rules state call.lineNo call.line with
      | .error e => (.error (.position e), state)
      | .ok (fired, next) => (.ok fired, next) :=
    tryRules_eq fun rule hready => h.not_lacksPhase hready
  refine ⟨?_, hrun⟩
  rw [hrun]
  rcases applyRules call.rules state call.lineNo call.line with e | ⟨fired, next⟩ <;> simp

end DiskLens
