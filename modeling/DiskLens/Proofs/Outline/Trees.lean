import DiskLens.Outline.ContentType
import DiskLens.Proofs.Outline.Hooks

/-!
# Outlines as trees over a document

Every symbol of an outline stands on one whole line, no two stand on the same line, and they come in
the order of the document; only the root of a log stands aside. What kind a symbol is shows how deep
it lies.

* `Symbol.allNodes`: all symbols of a forest; `Symbol.InOrder`: siblings in document order.
* **`OverLines`**: a forest over the lines of a document; `.keep`, `.insert`, `.addChild`: one more
  line.
* `blockState_placed`, `logState_placed`: the symbols of a parameter file and of a log.
* **`OutlineTree`**: a well-formed outline; **`outlineNamed_tree`**: every outline is one.
-/

namespace DiskLens

/-! ## Forests -/

namespace Symbol

/-- The line that a symbol starts on. -/
def line (s : Symbol) : Nat := s.range.start.line

mutual

/-- A symbol and those below it. -/
def nodes : Symbol → List Symbol
  | ⟨title, detail, kind, range, children⟩ =>
    ⟨title, detail, kind, range, children⟩ :: allNodes children

/-- Some symbols and those below them. -/
def allNodes : List Symbol → List Symbol
  | [] => []
  | s :: symbols => nodes s ++ allNodes symbols

end

/-- The symbol stands on one whole line of a document. -/
def Covers (lines : List (List Char)) (s : Symbol) : Prop :=
  ∃ i text, lines[i]? = some text ∧ s.range = ⟨⟨i, 0⟩, ⟨i, text.length⟩⟩

/-- Siblings in the order of the document. -/
def InOrder (siblings : List Symbol) : Prop := (siblings.map line).Pairwise (· < ·)

theorem nodes_eq (s : Symbol) : s.nodes = s :: allNodes s.children := by
  cases s
  rw [nodes]

theorem allNodes_cons (s : Symbol) (l : List Symbol) :
    allNodes (s :: l) = s :: (allNodes s.children ++ allNodes l) := by
  rw [allNodes, nodes_eq, List.cons_append]

theorem allNodes_append (l l' : List Symbol) :
    allNodes (l ++ l') = allNodes l ++ allNodes l' := by
  induction l with
  | nil => rfl
  | cons s l ih => simp [allNodes_cons, ih]

theorem mem_allNodes_of_mem {s : Symbol} {l : List Symbol} (h : s ∈ l) : s ∈ allNodes l := by
  obtain ⟨l₁, l₂, rfl⟩ := List.append_of_mem h
  simp [allNodes_append, allNodes_cons]

/-- A new symbol without children is one more node. -/
theorem allNodes_insert_perm {s : Symbol} (hleaf : s.children = []) (l₁ l₂ : List Symbol) :
    (allNodes (l₁ ++ s :: l₂)).Perm (s :: allNodes (l₁ ++ l₂)) := by
  rw [allNodes_append, allNodes_cons, hleaf, allNodes_append]
  exact List.perm_middle

/-- The nodes around a symbol. -/
def nodesAround (l₁ : List Symbol) (s : Symbol) (l₂ : List Symbol) : List Symbol :=
  allNodes l₁ ++ (allNodes s.children ++ allNodes l₂)

theorem allNodes_perm_cons (l₁ : List Symbol) (s : Symbol) (l₂ : List Symbol) :
    (allNodes (l₁ ++ s :: l₂)).Perm (s :: nodesAround l₁ s l₂) := by
  rw [allNodes_append, allNodes_cons]
  exact List.perm_middle

/-- A new child without children is one more node, and its parent is another symbol. -/
theorem allNodes_addChild_perm {child : Symbol} (hleaf : child.children = []) (l₁ : List Symbol)
    (s : Symbol) (l₂ : List Symbol) :
    (allNodes (l₁ ++ s.addChild child :: l₂)).Perm
      (child :: s.addChild child :: nodesAround l₁ s l₂) := by
  have hnodes : allNodes (s.addChild child).children = allNodes s.children ++ [child] := by
    rw [addChild, allNodes_append, allNodes_cons, hleaf]
    rfl
  have haround : (nodesAround l₁ (s.addChild child) l₂).Perm (child :: nodesAround l₁ s l₂) := by
    unfold nodesAround
    rw [hnodes, List.append_assoc, ← List.append_assoc, List.singleton_append,
      ← List.append_assoc (allNodes l₁)]
    exact List.perm_middle
  exact (allNodes_perm_cons ..).trans ((haround.cons _).trans (.swap ..))

theorem inOrder_snoc {l : List Symbol} {s : Symbol} (h : InOrder l)
    (hlast : ∀ t ∈ l, t.line < s.line) : InOrder (l ++ [s]) := by
  unfold InOrder
  rw [List.map_append, List.pairwise_append]
  refine ⟨h, List.pairwise_singleton .., fun a ha b hb => ?_⟩
  obtain ⟨t, ht, rfl⟩ := List.mem_map.mp ha
  obtain rfl := List.mem_singleton.mp hb
  exact hlast t ht

theorem inOrder_modify {phases : List Symbol} (h : InOrder phases) (k : Nat) (child : Symbol) :
    InOrder (phases.modify k (·.addChild child)) := by
  have hheads := congrArg (List.map Prod.snd) (map_head_modify phases k child)
  rw [List.map_map, List.map_map] at hheads
  have hlines : (phases.modify k (·.addChild child)).map line = phases.map line := hheads
  unfold InOrder
  rw [hlines]
  exact h

theorem Covers.line_lt {lines : List (List Char)} {s : Symbol} (h : s.Covers lines) :
    s.line < lines.length := by
  obtain ⟨i, text, hi, hrange⟩ := h
  unfold line
  rw [hrange]
  exact (List.getElem?_eq_some_iff.mp hi).1

theorem Covers.keep {lines : List (List Char)} {s : Symbol} (h : s.Covers lines)
    (next : List Char) : s.Covers (lines ++ [next]) := by
  obtain ⟨i, text, hi, hrange⟩ := h
  refine ⟨i, text, ?_, hrange⟩
  rw [List.getElem?_append_left (List.getElem?_eq_some_iff.mp hi).1]
  exact hi

/-- A symbol without children on the line that comes after some lines. -/
structure IsNew (lines : List (List Char)) (next : List Char) (s : Symbol) : Prop where
  range_eq : s.range = ⟨⟨lines.length, 0⟩, ⟨lines.length, next.length⟩⟩
  leaf : s.children = []

theorem IsNew.line_eq {lines : List (List Char)} {next : List Char} {s : Symbol}
    (h : s.IsNew lines next) : s.line = lines.length := by
  unfold line
  rw [h.range_eq]

theorem IsNew.covers {lines : List (List Char)} {next : List Char} {s : Symbol}
    (h : s.IsNew lines next) : s.Covers (lines ++ [next]) :=
  ⟨lines.length, next, List.getElem?_concat_length .., h.range_eq⟩

end Symbol

/-! ## Forests over a document -/

/-- **A forest over the lines of a document**: its symbols stand on lines of their own, children
below their parents and in order. -/
structure OverLines (lines : List (List Char)) (forest : List Symbol) : Prop where
  covers : ∀ s ∈ Symbol.allNodes forest, s.Covers lines
  inOrder : ∀ s ∈ Symbol.allNodes forest, Symbol.InOrder s.children
  below : ∀ s ∈ Symbol.allNodes forest, ∀ child ∈ s.children, s.line < child.line
  nodup : ((Symbol.allNodes forest).map Symbol.line).Nodup

namespace OverLines

variable {lines : List (List Char)} {next : List Char} {forest l₁ l₂ : List Symbol} {s p : Symbol}

theorem nil (lines : List (List Char)) : OverLines lines [] where
  covers _ h := nomatch h
  inOrder _ h := nomatch h
  below _ h := nomatch h
  nodup := List.nodup_nil

/-- A line that adds no symbol. -/
theorem keep (h : OverLines lines forest) (next : List Char) :
    OverLines (lines ++ [next]) forest :=
  ⟨fun s hs => (h.covers s hs).keep next, h.inOrder, h.below, h.nodup⟩

theorem line_lt (h : OverLines lines forest) (hs : s ∈ Symbol.allNodes forest) :
    s.line < lines.length :=
  (h.covers s hs).line_lt

theorem line_lt_new (h : OverLines lines forest) (hnew : p.IsNew lines next)
    (hs : s ∈ Symbol.allNodes forest) : s.line < p.line := by
  rw [hnew.line_eq]
  exact h.line_lt hs

theorem nodup_new (h : OverLines lines forest) (hnew : s.IsNew lines next) :
    (s.line :: (Symbol.allNodes forest).map Symbol.line).Nodup := by
  rw [List.nodup_cons]
  refine ⟨fun hline => ?_, h.nodup⟩
  obtain ⟨t, ht, heq⟩ := List.mem_map.mp hline
  have := h.line_lt_new hnew ht
  omega

/-- A line that adds a symbol at the first level. -/
theorem insert (h : OverLines lines (l₁ ++ l₂)) (hnew : s.IsNew lines next) :
    OverLines (lines ++ [next]) (l₁ ++ s :: l₂) := by
  have hperm := Symbol.allNodes_insert_perm hnew.leaf l₁ l₂
  have hmem : ∀ t ∈ Symbol.allNodes (l₁ ++ s :: l₂), t = s ∨ t ∈ Symbol.allNodes (l₁ ++ l₂) :=
    fun t ht => List.mem_cons.mp (hperm.mem_iff.mp ht)
  refine ⟨fun t ht => ?_, fun t ht => ?_, fun t ht child hchild => ?_, ?_⟩
  · rcases hmem t ht with rfl | hold
    · exact hnew.covers
    · exact (h.covers t hold).keep next
  · rcases hmem t ht with rfl | hold
    · rw [hnew.leaf]
      exact List.Pairwise.nil
    · exact h.inOrder t hold
  · rcases hmem t ht with rfl | hold
    · rw [hnew.leaf] at hchild
      cases hchild
    · exact h.below t hold child hchild
  · exact (hperm.map Symbol.line).nodup_iff.mpr (h.nodup_new hnew)

theorem snoc (h : OverLines lines forest) (hnew : s.IsNew lines next) :
    OverLines (lines ++ [next]) (forest ++ [s]) := by
  rw [← List.append_nil forest] at h
  exact h.insert hnew

/-- A line that adds a symbol below one of the first level. -/
theorem addChild (h : OverLines lines (l₁ ++ p :: l₂)) (hnew : s.IsNew lines next) :
    OverLines (lines ++ [next]) (l₁ ++ p.addChild s :: l₂) := by
  have hold := Symbol.allNodes_perm_cons l₁ p l₂
  have hperm := Symbol.allNodes_addChild_perm hnew.leaf l₁ p l₂
  have hp : p ∈ Symbol.allNodes (l₁ ++ p :: l₂) := hold.mem_iff.mpr List.mem_cons_self
  have hchildren : ∀ child ∈ p.children, child ∈ Symbol.allNodes (l₁ ++ p :: l₂) := by
    intro child hchild
    rw [Symbol.allNodes_append, Symbol.allNodes_cons]
    simp [Symbol.mem_allNodes_of_mem hchild]
  have hmem : ∀ t ∈ Symbol.allNodes (l₁ ++ p.addChild s :: l₂),
      t = s ∨ t = p.addChild s ∨ t ∈ Symbol.allNodes (l₁ ++ p :: l₂) := by
    intro t ht
    rcases List.mem_cons.mp (hperm.mem_iff.mp ht) with rfl | ht
    · exact .inl rfl
    · rcases List.mem_cons.mp ht with rfl | ht
      · exact .inr (.inl rfl)
      · exact .inr (.inr (hold.mem_iff.mpr (List.mem_cons_of_mem _ ht)))
  refine ⟨fun t ht => ?_, fun t ht => ?_, fun t ht child hchild => ?_, ?_⟩
  · rcases hmem t ht with rfl | rfl | ht
    · exact hnew.covers
    · exact (h.covers p hp).keep next
    · exact (h.covers t ht).keep next
  · rcases hmem t ht with rfl | rfl | ht
    · rw [hnew.leaf]
      exact List.Pairwise.nil
    · exact Symbol.inOrder_snoc (h.inOrder p hp) fun child hchild =>
        h.line_lt_new hnew (hchildren child hchild)
    · exact h.inOrder t ht
  · rcases hmem t ht with rfl | rfl | ht
    · rw [hnew.leaf] at hchild
      cases hchild
    · rcases List.mem_append.mp hchild with hchild | hchild
      · exact h.below p hp child hchild
      · rw [List.mem_singleton.mp hchild]
        show p.line < s.line
        exact h.line_lt_new hnew hp
    · exact h.below t ht child hchild
  · -- the lines are those of before, the parent's too, and the new one
    have hlines : ((Symbol.allNodes (l₁ ++ p.addChild s :: l₂)).map Symbol.line).Perm
        (s.line :: (Symbol.allNodes (l₁ ++ p :: l₂)).map Symbol.line) :=
      (hperm.map Symbol.line).trans ((hold.map Symbol.line).symm.cons _)
    exact hlines.nodup_iff.mpr (h.nodup_new hnew)

end OverLines

/-! ## Parameter files -/

/-- The symbols of a parameter file after some lines. -/
def blockState (lines : List (List Char)) : List Symbol :=
  lines.zipIdx.foldl (fun symbols p => blockStep symbols p.2 p.1) []

theorem blockState_snoc (lines : List (List Char)) (line : List Char) :
    blockState (lines ++ [line]) = blockStep (blockState lines) lines.length line := by
  simp [blockState, List.zipIdx_append]

/-- The outline of a parameter file that is read to its end; there is none of one that is not. -/
theorem parameterOutline_cases (text : String) (token : Option CancelToken) :
    let lines := splitLines text.toList
    (CancelToken.Outlasts token lines.length →
      parameterOutline text token = blockState lines) ∧
    (¬ CancelToken.Outlasts token lines.length → parameterOutline text token = []) := by
  intro lines
  obtain ⟨hgo, hstop⟩ := scanLines_cases blockStep token [] 0 lines
  have hscan : parameterOutline text token =
      (scanLines blockStep token [] 0 lines).1.getD [] := rfl
  refine ⟨fun h => ?_, fun h => ?_⟩
  · rw [hscan, hgo h]
    rfl
  · rw [hscan, hstop h]
    rfl

/-- What is known of the symbols of a parameter file. -/
structure BlocksPlaced (lines : List (List Char)) (symbols : List Symbol) : Prop where
  overLines : OverLines lines symbols
  inOrder : Symbol.InOrder symbols
  flat : ∀ s ∈ symbols, s.kind = .block ∧ s.children = []

/-- One more line of a parameter file. -/
theorem BlocksPlaced.step {lines : List (List Char)} {symbols : List Symbol}
    (h : BlocksPlaced lines symbols) (line : List Char) :
    BlocksPlaced (lines ++ [line]) (blockStep symbols lines.length line) := by
  unfold blockStep blockSymbol?
  cases blockTitle? line with
  | none =>
    rw [Option.map_none, Option.toList_none, List.append_nil]
    exact ⟨h.overLines.keep line, h.inOrder, h.flat⟩
  | some title =>
    rw [Option.map_some, Option.toList_some]
    have hnew : (Symbol.leaf (String.ofList title) "block" .block
        ⟨⟨lines.length, 0⟩, ⟨lines.length, line.length⟩⟩).IsNew lines line := ⟨rfl, rfl⟩
    refine ⟨h.overLines.snoc hnew, ?_, fun s hs => ?_⟩
    · refine Symbol.inOrder_snoc h.inOrder fun t ht => ?_
      exact h.overLines.line_lt_new hnew (Symbol.mem_allNodes_of_mem ht)
    · rcases List.mem_append.mp hs with hs | hs
      · exact h.flat s hs
      · rw [List.mem_singleton.mp hs]
        exact ⟨rfl, rfl⟩

theorem blockState_placed (lines : List (List Char)) : BlocksPlaced lines (blockState lines) := by
  induction lines using List.reverseRecOn with
  | nil => exact ⟨.nil [], List.Pairwise.nil, fun _ h => nomatch h⟩
  | append_singleton lines line ih =>
    rw [blockState_snoc]
    exact ih.step line

/-! ## Run logs -/

theorem logState_consistent (lines : List (List Char)) : (logState lines).Consistent := by
  induction lines using List.reverseRecOn with
  | nil => exact .start
  | append_singleton lines line ih =>
    rw [logState_snoc, ← tableStep_logRules]
    exact ih.tryRules logRules lines.length line

/-- What is known of the symbols of a log. -/
structure ScanState.Placed (lines : List (List Char)) (state : ScanState) : Prop where
  overLines : OverLines lines (state.phases ++ state.stages)
  phases_inOrder : Symbol.InOrder state.phases
  stages_inOrder : Symbol.InOrder state.stages
  stage_kind : ∀ s ∈ state.stages, s.kind = .stage
  phase_kind : ∀ phase ∈ state.phases, phase.kind = .phase
  system_kind : ∀ phase ∈ state.phases, ∀ s ∈ phase.children, s.kind = .system

namespace ScanState.Placed

variable {lines : List (List Char)} {line : List Char} {state : ScanState} {s : Symbol}

theorem start : ScanState.start.Placed [] where
  overLines := .nil []
  phases_inOrder := List.Pairwise.nil
  stages_inOrder := List.Pairwise.nil
  stage_kind _ h := nomatch h
  phase_kind _ h := nomatch h
  system_kind _ h := nomatch h

/-- A line that adds a stage. -/
theorem stage (h : state.Placed lines) (hnew : s.IsNew lines line) (hkind : s.kind = .stage)
    {next : ScanState} (hphases : next.phases = state.phases)
    (hstages : next.stages = state.stages ++ [s]) : next.Placed (lines ++ [line]) := by
  refine ⟨?_, ?_, ?_, fun t ht => ?_, ?_, ?_⟩
  · rw [hphases, hstages, ← List.append_assoc]
    exact h.overLines.snoc hnew
  · rw [hphases]
    exact h.phases_inOrder
  · rw [hstages]
    refine Symbol.inOrder_snoc h.stages_inOrder fun t ht => ?_
    exact h.overLines.line_lt_new hnew (Symbol.mem_allNodes_of_mem (List.mem_append_right _ ht))
  · rw [hstages] at ht
    rcases List.mem_append.mp ht with ht | ht
    · exact h.stage_kind t ht
    · rw [List.mem_singleton.mp ht]
      exact hkind
  · rw [hphases]
    exact h.phase_kind
  · rw [hphases]
    exact h.system_kind

/-- A line that adds a phase. -/
theorem phase (h : state.Placed lines) (hnew : s.IsNew lines line) (hkind : s.kind = .phase)
    (hook : Option Nat) :
    { state.addPhase s with heating := hook }.Placed (lines ++ [line]) := by
  refine ⟨?_, ?_, h.stages_inOrder, h.stage_kind, fun p hp => ?_, fun p hp t ht => ?_⟩
  · have hover := h.overLines.insert hnew
    simpa [ScanState.addPhase] using hover
  · refine Symbol.inOrder_snoc h.phases_inOrder fun t ht => ?_
    exact h.overLines.line_lt_new hnew (Symbol.mem_allNodes_of_mem (List.mem_append_left _ ht))
  · rcases mem_phases_addPhase.mp hp with hp | rfl
    · exact h.phase_kind p hp
    · exact hkind
  · rcases mem_phases_addPhase.mp hp with hp | rfl
    · exact h.system_kind p hp t ht
    · rw [hnew.leaf] at ht
      cases ht

/-- A line that adds a system. -/
theorem system (h : state.Placed lines) (hnew : s.IsNew lines line) (hkind : s.kind = .system)
    {k : Nat} (hk : state.heating = some k) (hlt : k < state.phases.length) :
    (state.addSystem s).Placed (lines ++ [line]) := by
  rw [addSystem_eq hk]
  refine ⟨?_, Symbol.inOrder_modify h.phases_inOrder k s, h.stages_inOrder, h.stage_kind,
    fun p hp => ?_, fun p hp t ht => ?_⟩
  · obtain ⟨l₁, old, l₂, hphases, -, hmodify⟩ := List.exists_of_modify (·.addChild s) hlt
    have hover := h.overLines
    rw [hphases, List.append_assoc, List.cons_append] at hover
    simp only [hmodify, List.append_assoc, List.cons_append]
    exact hover.addChild hnew
  · rcases Symbol.mem_modify_addChild hp with hp | ⟨old, hold, rfl⟩
    · exact h.phase_kind p hp
    · exact h.phase_kind old (List.mem_of_getElem? hold)
  · rcases Symbol.mem_modify_addChild hp with hp | ⟨old, hold, rfl⟩
    · exact h.system_kind p hp t ht
    · rcases List.mem_append.mp ht with ht | ht
      · exact h.system_kind old (List.mem_of_getElem? hold) t ht
      · rw [List.mem_singleton.mp ht]
        exact hkind

/-- **One more line of a log.** -/
theorem step (h : state.Placed lines) (hstate : state.Consistent) (line : List Char) :
    (logStep state lines.length line).Placed (lines ++ [line]) := by
  obtain ⟨rule, title, hready, -, hstep⟩ | ⟨-, hstep⟩ := logStep_cases state lines.length line
  · have hnew : (rule.symbol title lines.length line).IsNew lines line := ⟨rfl, rfl⟩
    rw [hstep]
    cases rule with
    | initPhase => exact h.phase hnew rfl _
    | initEnd => exact h.phase hnew rfl state.heating
    | heatingSystem =>
      obtain ⟨k, hk⟩ := Option.isSome_iff_exists.mp hready
      obtain ⟨phase, hphase, -⟩ := hstate.exists_phase hk
      exact h.system hnew rfl hk (List.getElem?_eq_some_iff.mp hphase).1
    | closeChemistry | closeContinuum | spectrum | openChemistry | openContinuum
    | lineTransfer => exact h.stage hnew rfl rfl rfl
  · rw [hstep]
    exact ⟨h.overLines.keep line, h.phases_inOrder, h.stages_inOrder, h.stage_kind, h.phase_kind,
      h.system_kind⟩

end ScanState.Placed

theorem logState_placed (lines : List (List Char)) : (logState lines).Placed lines := by
  induction lines using List.reverseRecOn with
  | nil => exact .start
  | append_singleton lines line ih =>
    rw [logState_snoc]
    exact ih.step (logState_consistent lines) line

/-! ## Outlines -/

namespace ContentType

/-- The lists of siblings at the top of an outline: its symbols, or in a log those below the root
and those beside it. -/
def topGroups (type : ContentType) (symbols : List Symbol) : List (List Symbol) :=
  match type, symbols with
  | log, root :: stages => [root.children, stages]
  | _, symbols => [symbols]

/-- How kinds follow depth. -/
def Shape (type : ContentType) (symbols : List Symbol) : Prop :=
  match type with
  | parameters => ∀ s ∈ symbols, s.kind = .block ∧ s.children = []
  | log => ∃ phases stages, symbols = ScanState.root phases :: stages ∧
      (∀ s ∈ stages, s.kind = .stage ∧ s.children = []) ∧
      ∀ phase ∈ phases, phase.kind = .phase ∧ ∀ s ∈ phase.children, s.kind = .system ∧
        s.children = []

end ContentType

/-- **A well-formed outline of a document.** The root of a log, if there is one, stands aside: the
other symbols are a forest over the lines, and siblings come in order at the top as well. -/
structure OutlineTree (type : ContentType) (lines : List (List Char)) (symbols : List Symbol) :
    Prop where
  overLines : OverLines lines (type.topGroups symbols).flatten
  inOrder : ∀ group ∈ type.topGroups symbols, Symbol.InOrder group
  shape : type.Shape symbols

theorem blockState_tree (lines : List (List Char)) :
    OutlineTree .parameters lines (blockState lines) := by
  have h := blockState_placed lines
  refine ⟨?_, fun group hgroup => ?_, h.flat⟩
  · simpa [ContentType.topGroups] using h.overLines
  · rw [List.mem_singleton.mp hgroup]
    exact h.inOrder

theorem logState_tree (lines : List (List Char)) :
    OutlineTree .log lines (logState lines).symbols := by
  have h := logState_placed lines
  have hstate := logState_consistent lines
  refine ⟨?_, fun group hgroup => ?_, (logState lines).phases, (logState lines).stages, rfl, ?_, ?_⟩
  · simpa [ContentType.topGroups, ScanState.symbols, ScanState.root] using h.overLines
  · rcases List.mem_cons.mp hgroup with rfl | hgroup
    · exact h.phases_inOrder
    · rw [List.mem_singleton.mp hgroup]
      exact h.stages_inOrder
  · exact fun s hs => ⟨h.stage_kind s hs, hstate.stage_leaf s hs⟩
  · intro phase hphase
    refine ⟨h.phase_kind phase hphase, fun s hs => ?_⟩
    exact ⟨h.system_kind phase hphase s hs, hstate.system_leaf phase hphase s hs⟩

theorem outlineNamed_name (text : String) (type : ContentType) (token : Option CancelToken) :
    outlineNamed text type.name token = .ok (outline text type token) := by
  cases type <;> rfl

/-- **Every outline is a well-formed tree over its document**, and there is none of a scan that was
cancelled. -/
theorem outlineNamed_tree (text : String) (type : ContentType) (token : Option CancelToken) :
    let lines := splitLines text.toList
    ∃ symbols, outlineNamed text type.name token = .ok symbols ∧
      (CancelToken.Outlasts token lines.length → OutlineTree type lines symbols) ∧
      (¬ CancelToken.Outlasts token lines.length → symbols = []) := by
  intro lines
  refine ⟨_, outlineNamed_name text type token, ?_⟩
  cases type with
  | parameters =>
    obtain ⟨hgo, hstop⟩ := parameterOutline_cases text token
    refine ⟨fun h => ?_, hstop⟩
    show OutlineTree .parameters lines (parameterOutline text token)
    rw [hgo h]
    exact blockState_tree lines
  | log =>
    obtain ⟨hgo, hstop⟩ := logOutline_cases text token
    refine ⟨fun h => ?_, hstop⟩
    show OutlineTree .log lines (logOutline text token)
    rw [hgo h]
    exact logState_tree lines

/-- A system stands below a phase that is followed by other symbols. -/
theorem outlineNamed_tree_of_log :
    let text := " INIT_HEATCOOL: cooling\n total INIT CPU time\n" ++
      " CHEMISTRY AND ENERGY BALANCE ...\n   INIT SYS CO ..."
    let lines := splitLines text.toList
    CancelToken.Outlasts none lines.length ∧
      ∃ symbols, outlineNamed text "prodimolog" none = .ok symbols ∧
        OutlineTree .log lines symbols ∧
        (Symbol.allNodes symbols).map Symbol.head = [("INIT", 0), ("INIT_HEATCOOL", 0), ("CO", 3),
          ("INIT END", 1), ("CHEMISTRY START", 2)] := by
  intro text lines
  have hlast : CancelToken.Outlasts none lines.length := CancelToken.outlasts_none _
  obtain ⟨symbols, hsymbols, htree, -⟩ := outlineNamed_tree text .log none
  refine ⟨hlast, symbols, hsymbols, htree hlast, ?_⟩
  obtain rfl := Except.ok.inj ((outlineNamed_name text .log none).symm.trans hsymbols)
  decide +kernel

end DiskLens
