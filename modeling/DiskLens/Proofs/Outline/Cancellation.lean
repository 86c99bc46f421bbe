import DiskLens.Proofs.Outline.Trees

/-!
# Scans that are cancelled

A scan asks its token before each line and gives up at the first "stop". So an outline is whole or
empty: a token that bears as many questions as there are lines changes nothing, and with any other
one there is no outline.

* `CancelToken.left`: the questions that a token still bears.
* `Watched`, **`watchedScan`**: a scan that writes down its questions and the lines that it reads;
  `watchedScan_run`: it is the scan.
* `events_watchedScan`, `token_scanLines`: what it does, and how often it asks.
* **`outline_all_or_nothing`**: the outline under a token, and the course of the scan.
-/

namespace DiskLens

/-! ## Tokens -/

namespace CancelToken

/-- How many questions the token still answers with "go on". -/
def left (t : CancelToken) : Nat := t.patience - t.asked

theorem outlasts_fresh {n questions : Nat} :
    Outlasts (some (fresh n)) questions ↔ questions ≤ n := by
  simp only [Outlasts, fresh, Option.mem_some_iff, forall_eq', Nat.zero_add]
  constructor
  · intro h
    by_contra hlt
    exact absurd (h n (by omega)) (Nat.lt_irrefl n)
  · intro h k hk
    omega

theorem ask?_of_left_eq_zero {t : CancelToken} (h : t.left = 0) :
    ask? (some t) = (true, some { t with asked := t.asked + 1 }) := by
  have hle : t.patience ≤ t.asked := by unfold left at h; omega
  simp [ask?, ask, hle]

theorem ask?_of_left_eq_succ {t : CancelToken} {k : Nat} (h : t.left = k + 1) :
    ask? (some t) = (false, some { t with asked := t.asked + 1 }) ∧
      { t with asked := t.asked + 1 }.left = k := by
  unfold left at h ⊢
  have hlt : ¬ t.patience ≤ t.asked := by omega
  refine ⟨by simp [ask?, ask, hlt], ?_⟩
  show t.patience - (t.asked + 1) = k
  omega

end CancelToken

/-- A token that stops the scan was asked once more than it bears, any other one once a line. -/
theorem token_scanLines {α σ : Type} (step : σ → Nat → α → σ) (t : CancelToken) (state : σ)
    (n : Nat) (lines : List α) :
    (scanLines step (some t) state n lines).2 =
      some { t with asked := t.asked + min (t.left + 1) lines.length } := by
  induction lines generalizing t state n with
  | nil => rfl
  | cons line lines ih =>
    rw [scanLines]
    cases hleft : t.left with
    | zero =>
      rw [CancelToken.ask?_of_left_eq_zero hleft]
      simp
    | succ k =>
      obtain ⟨hask, hnext⟩ := CancelToken.ask?_of_left_eq_succ hleft
      rw [hask]
      simp only [ih, hnext, List.length_cons]
      congr 2
      omega

/-! ## The course of a scan -/

/-- What a scan does: it asks its token, or reads the line with a number. -/
inductive ScanEvent
  | ask
  | read (n : Nat)
deriving DecidableEq, Repr

/-- What is known of a scan while it goes on: its token, and what it has done. -/
structure ScanWatch where
  token : Option CancelToken
  events : List ScanEvent
deriving DecidableEq, Repr

/-- Steps of a scan that is watched. -/
abbrev Watched := StateM ScanWatch

namespace Watched

/-- The result of some steps, and what is known after them. -/
def runFrom {α : Type} (steps : Watched α) (watch : ScanWatch) : α × ScanWatch :=
  (steps.run watch).run

/-- A question to the token. -/
def ask : Watched Bool := do
  let watch ← get
  let (stop, token) := CancelToken.ask? watch.token
  set (⟨token, watch.events ++ [.ask]⟩ : ScanWatch)
  return stop

/-- One line is read. -/
def read {α σ : Type} (step : σ → Nat → α → σ) (state : σ) (n : Nat) (line : α) : Watched σ := do
  modify fun watch => { watch with events := watch.events ++ [.read n] }
  return step state n line

end Watched

/-- **A scan that is watched.** -/
def watchedScan {α σ : Type} (step : σ → Nat → α → σ) (state : σ) (n : Nat) :
    List α → Watched (Option σ)
  | [] => return some state
  | line :: lines => do
    if ← Watched.ask then return none
    else watchedScan step (← Watched.read step state n line) (n + 1) lines

section Watched

variable {α σ : Type} (step : σ → Nat → α → σ) (state : σ) (n : Nat)

theorem watchedScan_cons (line : α) (lines : List α) (watch : ScanWatch) :
    (watchedScan step state n (line :: lines)).runFrom watch =
      match CancelToken.ask? watch.token with
      | (true, token) => (none, ⟨token, watch.events ++ [.ask]⟩)
      | (false, token) => (watchedScan step (step state n line) (n + 1) lines).runFrom
          ⟨token, watch.events ++ [.ask, .read n]⟩ := by
  rcases hask : CancelToken.ask? watch.token with ⟨stop, token⟩
  cases stop <;> simp [Watched.runFrom, watchedScan, Watched.ask, Watched.read, hask]

/-- Watching a scan does not change it. -/
theorem watchedScan_run (lines : List α) (watch : ScanWatch) :
    let result := (watchedScan step state n lines).runFrom watch
    (result.1, result.2.token) = scanLines step watch.token state n lines := by
  induction lines generalizing state n watch with
  | nil => rfl
  | cons line lines ih =>
    rw [watchedScan_cons, scanLines]
    rcases CancelToken.ask? watch.token with ⟨stop, token⟩
    cases stop with
    | true => rfl
    | false => exact ih (step state n line) (n + 1) ⟨token, _⟩

/-- **The course of a scan** of some lines under a token that bears some questions: a question
before each line, and one more if it is answered with "stop". -/
def courseOf (first bears lines : Nat) : List ScanEvent :=
  (List.range' first (min bears lines)).flatMap (fun k => [.ask, .read k]) ++
    if bears < lines then [.ask] else []

theorem courseOf_succ (first bears lines : Nat) :
    courseOf first (bears + 1) (lines + 1) =
      .ask :: .read first :: courseOf (first + 1) bears lines := by
  have hmin : min (bears + 1) (lines + 1) = min bears lines + 1 := by omega
  unfold courseOf
  rw [hmin, List.range'_succ, List.flatMap_cons]
  simp

theorem events_watchedScan (t : CancelToken) (lines : List α) (events : List ScanEvent) :
    ((watchedScan step state n lines).runFrom ⟨some t, events⟩).2.events =
      events ++ courseOf n t.left lines.length := by
  induction lines generalizing t state n events with
  | nil => simp [Watched.runFrom, watchedScan, courseOf]
  | cons line lines ih =>
    rw [watchedScan_cons, List.length_cons]
    cases hleft : t.left with
    | zero =>
      rw [CancelToken.ask?_of_left_eq_zero hleft]
      simp [courseOf]
    | succ k =>
      obtain ⟨hask, hnext⟩ := CancelToken.ask?_of_left_eq_succ hleft
      rw [hask, courseOf_succ]
      simp only [ih, hnext, List.append_assoc]
      rfl

end Watched

/-! ## Outlines -/

namespace ContentType

/-- The outline of a document and the token after the scan. -/
def scan (type : ContentType) (text : List Char) (token : Option CancelToken) :
    List Symbol × Option CancelToken :=
  match type with
  | parameters => parameterScan text token
  | log => logScan text token

/-- The same, watched. -/
def watchedOutline (type : ContentType) (text : List Char) : Watched (List Symbol) :=
  match type with
  | parameters => do
    let symbols ← watchedScan blockStep [] 0 (splitLines text)
    return symbols.getD []
  | log => do
    let state ← watchedScan logStep .start 0 (splitLines text)
    return (state.map ScanState.symbols).getD []

theorem outline_eq_scan (type : ContentType) (text : String) (token : Option CancelToken) :
    outline text type token = (type.scan text.toList token).1 := by
  cases type <;> rfl

theorem watchedOutline_run (type : ContentType) (text : List Char) (watch : ScanWatch) :
    let result := (type.watchedOutline text).runFrom watch
    (result.1, result.2.token) = type.scan text watch.token := by
  cases type with
  | parameters =>
    have hrun := watchedScan_run blockStep [] 0 (splitLines text) watch
    unfold scan parameterScan
    rw [← hrun]
    rfl
  | log =>
    have hrun := watchedScan_run logStep .start 0 (splitLines text) watch
    unfold scan logScan
    rw [← hrun]
    rfl

theorem events_watchedOutline (type : ContentType) (text : List Char) (t : CancelToken) :
    ((type.watchedOutline text).runFrom ⟨some t, []⟩).2.events =
      courseOf 0 t.left (splitLines text).length := by
  cases type with
  | parameters => exact events_watchedScan blockStep [] 0 t (splitLines text) []
  | log => exact events_watchedScan logStep .start 0 t (splitLines text) []

theorem token_scan (type : ContentType) (text : List Char) (t : CancelToken) :
    (type.scan text (some t)).2 =
      some { t with asked := t.asked + min (t.left + 1) (splitLines text).length } := by
  cases type with
  | parameters => exact token_scanLines blockStep t [] 0 (splitLines text)
  | log => exact token_scanLines logStep t .start 0 (splitLines text)

/-- A token that lasts makes no difference, and with any other one there is no outline. -/
theorem outline_cases (type : ContentType) (text : String) (token : Option CancelToken) :
    let questions := (splitLines text.toList).length
    (CancelToken.Outlasts token questions → outline text type token = outline text type none) ∧
    (¬ CancelToken.Outlasts token questions → outline text type token = []) := by
  intro questions
  have hnone : CancelToken.Outlasts none questions := CancelToken.outlasts_none questions
  cases type with
  | parameters =>
    obtain ⟨hgo, hstop⟩ := parameterOutline_cases text token
    refine ⟨fun h => ?_, hstop⟩
    exact (hgo h).trans ((parameterOutline_cases text none).1 hnone).symm
  | log =>
    obtain ⟨hgo, hstop⟩ := logOutline_cases text token
    refine ⟨fun h => ?_, hstop⟩
    exact (hgo h).trans ((logOutline_cases text none).1 hnone).symm

end ContentType

/-- **An outline is whole or empty.** Under a token that says "go on" `n` times, the outline of a
document is empty if it has more than `n` lines, and the one without a token if not. The scan asks
before each line that it reads, and never after the last line. -/
theorem outline_all_or_nothing (text : String) (type : ContentType) (n : Nat) :
    let lines := (splitLines text.toList).length
    let token := CancelToken.fresh n
    let watched := (type.watchedOutline text.toList).runFrom ⟨some token, []⟩
    outline text type (some token) = (if n < lines then [] else outline text type none) ∧
    outlineNamed text type.name (some token) =
      (if n < lines then .ok [] else outlineNamed text type.name none) ∧
    type.scan text.toList (some token) =
      (outline text type (some token), some ⟨n, min (n + 1) lines⟩) ∧
    (watched.1, watched.2.token) = type.scan text.toList (some token) ∧
    watched.2.events =
      (List.range (min n lines)).flatMap (fun k => [.ask, .read k]) ++
        if n < lines then [.ask] else [] := by
  intro lines token watched
  obtain ⟨hgo, hstop⟩ := type.outline_cases text (some token)
  rw [CancelToken.outlasts_fresh] at hgo hstop
  have houtline : outline text type (some token) =
      if n < lines then [] else outline text type none := by
    by_cases hn : n < lines
    · rw [if_pos hn]
      exact hstop (by omega)
    · rw [if_neg hn]
      exact hgo (by omega)
  refine ⟨houtline, ?_, ?_, type.watchedOutline_run text.toList ⟨some token, []⟩, ?_⟩
  · rw [outlineNamed_name, outlineNamed_name, houtline]
    split <;> rfl
  · apply Prod.ext
    · exact (type.outline_eq_scan text _).symm
    · simpa [token, CancelToken.fresh, CancelToken.left] using type.token_scan text.toList token
  · rw [List.range_eq_range']
    exact type.events_watchedOutline text.toList token

end DiskLens
