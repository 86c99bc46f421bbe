import DiskLens.Proofs.Outline.LogRules
import Mathlib.Data.List.Induction

/-!
# A log as a list of lines

A scan is a fold over the numbered lines of a log. What it remembers can be told from the lines
alone: a hook is open if some line opened it and no later line closed it.

* `CancelToken.Outlasts`: a scan comes to its end; **`scanLines_cases`**: it is then a fold.
* **`logState`**: the state of a scan after some lines; `logState_snoc`: one more line.
* `logOutline_cases`: the outline of a log that was read to its end.
* `HasLine`, `HasSymbol`: a line of a log has a property, or a symbol in an outline.
* `OpenSince`: what one line opened is still open at another; `openSince_snoc`: one line on.
-/

namespace DiskLens

/-! ## A scan as a fold -/

/-- The token says "go on" to each of the next questions. -/
def CancelToken.Outlasts (token : Option CancelToken) (questions : Nat) : Prop :=
  ∀ t ∈ token, ∀ k < questions, t.asked + k < t.patience

theorem CancelToken.outlasts_none (questions : Nat) : Outlasts none questions :=
  fun _ h => nomatch h

/-- One question on. -/
theorem CancelToken.outlasts_succ (token : Option CancelToken) (questions : Nat) :
    Outlasts token (questions + 1) ↔
      (ask? token).1 = false ∧ Outlasts (ask? token).2 questions := by
  cases token with
  | none => simp [Outlasts, ask?]
  | some t =>
    simp only [Outlasts, ask?, ask, Option.mem_some_iff, forall_eq', decide_eq_false_iff_not]
    constructor
    · intro h
      have hzero := h 0 (by omega)
      refine ⟨by omega, fun k hk => ?_⟩
      have := h (k + 1) (by omega)
      omega
    · rintro ⟨hzero, h⟩ k hk
      rcases k with _ | k
      · omega
      · have := h k (by omega)
        omega

/-- **A scan ends with its last line**, or gives nothing if its token does not last that long. -/
theorem scanLines_cases {α σ : Type} (step : σ → Nat → α → σ) (token : Option CancelToken)
    (state : σ) (n : Nat) (lines : List α) :
    (CancelToken.Outlasts token lines.length → (scanLines step token state n lines).1 =
      some ((lines.zipIdx n).foldl (fun state p => step state p.2 p.1) state)) ∧
    (¬ CancelToken.Outlasts token lines.length →
      (scanLines step token state n lines).1 = none) := by
  induction lines generalizing token state n with
  | nil =>
    refine ⟨fun _ => rfl, fun h => absurd (fun t _ k hk => ?_) h⟩
    exact absurd hk (Nat.not_lt_zero k)
  | cons line lines ih =>
    obtain ⟨ihgo, ihstop⟩ := ih (CancelToken.ask? token).2 (step state n line) (n + 1)
    rw [List.length_cons, CancelToken.outlasts_succ, List.zipIdx_cons, List.foldl_cons, scanLines]
    rcases hask : CancelToken.ask? token with ⟨stop, token'⟩
    rw [hask] at ihgo ihstop
    cases stop with
    | true => simp
    | false => exact ⟨fun h => ihgo h.2, fun h => ihstop fun h' => h ⟨rfl, h'⟩⟩

/-- **The state of a scan after some lines.** -/
def logState (lines : List (List Char)) : ScanState :=
  lines.zipIdx.foldl (fun state p => logStep state p.2 p.1) .start

theorem logState_snoc (lines : List (List Char)) (line : List Char) :
    logState (lines ++ [line]) = logStep (logState lines) lines.length line := by
  simp [logState, List.zipIdx_append]

/-- The outline of a log that is read to its end; there is none of one that is not. -/
theorem logOutline_cases (text : String) (token : Option CancelToken) :
    let lines := splitLines text.toList
    (CancelToken.Outlasts token lines.length →
      logOutline text token = (logState lines).symbols) ∧
    (¬ CancelToken.Outlasts token lines.length → logOutline text token = []) := by
  intro lines
  obtain ⟨hgo, hstop⟩ := scanLines_cases logStep token .start 0 lines
  have hscan : logOutline text token =
      ((scanLines logStep token .start 0 lines).1.map ScanState.symbols).getD [] := rfl
  refine ⟨fun h => ?_, fun h => ?_⟩
  · rw [hscan, hgo h]
    rfl
  · rw [hscan, hstop h]
    rfl

/-! ## Lines -/

/-- Line `i` of a log is there and has a property. -/
def HasLine (lines : List (List Char)) (i : Nat) (p : List Char → Prop) : Prop :=
  ∃ line, lines[i]? = some line ∧ p line

section Lines

variable {lines : List (List Char)} {line : List Char} {i : Nat} {p : List Char → Prop}

theorem HasLine.lt_length (h : HasLine lines i p) : i < lines.length := by
  obtain ⟨line, hline, -⟩ := h
  exact (List.getElem?_eq_some_iff.mp hline).1

theorem hasLine_snoc_of_lt (h : i < lines.length) :
    HasLine (lines ++ [line]) i p ↔ HasLine lines i p := by
  rw [HasLine, List.getElem?_append_left h, HasLine]

theorem hasLine_snoc_length : HasLine (lines ++ [line]) lines.length p ↔ p line := by
  simp [HasLine]

/-- A line of a longer log is one of the lines before, or the last one. -/
theorem hasLine_snoc :
    HasLine (lines ++ [line]) i p ↔ HasLine lines i p ∨ i = lines.length ∧ p line := by
  obtain h | rfl | h := Nat.lt_trichotomy i lines.length
  · simp [hasLine_snoc_of_lt h, Nat.ne_of_lt h]
  · simp [HasLine]
  · have hlast : ¬ i < (lines ++ [line]).length := by simp; omega
    have hno : ¬ i < lines.length := by omega
    simp [mt HasLine.lt_length hlast, mt HasLine.lt_length hno, Nat.ne_of_gt h]

end Lines

/-- Some symbol of a list has this title and stands on this line. -/
def HasSymbol (symbols : List Symbol) (title : String) (i : Nat) : Prop :=
  ∃ s ∈ symbols, s.title = title ∧ s.range.start.line = i

theorem hasSymbol_snoc {symbols : List Symbol} {s : Symbol} {title : String} {i : Nat} :
    HasSymbol (symbols ++ [s]) title i ↔
      HasSymbol symbols title i ∨ s.title = title ∧ s.range.start.line = i := by
  simp [HasSymbol, or_and_right, exists_or]

/-! ## What is open -/

/-- **What line `j` opened is still open at line `i`**: no line in between closed it. -/
def OpenSince (opens closes : List Char → Prop) (lines : List (List Char)) (j i : Nat) : Prop :=
  j < i ∧ HasLine lines j opens ∧ ∀ k, j < k → k < i → ¬ HasLine lines k closes

section OpenSince

variable {opens closes : List Char → Prop} {lines : List (List Char)} {line : List Char} {i j : Nat}

/-- Only the lines before `i` matter. -/
theorem openSince_snoc_of_le (h : i ≤ lines.length) :
    OpenSince opens closes (lines ++ [line]) j i ↔ OpenSince opens closes lines j i := by
  refine and_congr_right fun hji => and_congr (hasLine_snoc_of_lt (by omega)) ?_
  refine forall_congr' fun k => imp_congr_right fun _ => imp_congr_right fun hki => ?_
  exact not_congr (hasLine_snoc_of_lt (by omega))

/-- One line on: it is opened just now, or was open and is not closed. -/
theorem openSince_snoc :
    OpenSince opens closes (lines ++ [line]) j (lines ++ [line]).length ↔
      j = lines.length ∧ opens line ∨
        OpenSince opens closes lines j lines.length ∧ ¬ closes line := by
  have hlength : (lines ++ [line]).length = lines.length + 1 := by simp
  have hopens : HasLine (lines ++ [line]) lines.length opens ↔ opens line := hasLine_snoc_length
  have hcloses : HasLine (lines ++ [line]) lines.length closes ↔ closes line := hasLine_snoc_length
  have hbefore : OpenSince opens closes (lines ++ [line]) j lines.length ↔
      OpenSince opens closes lines j lines.length := openSince_snoc_of_le (Nat.le_refl _)
  rw [← hbefore, ← hopens, ← hcloses, hlength]
  constructor
  · rintro ⟨hlt, hopen, hkeep⟩
    obtain hj | rfl := Nat.lt_or_eq_of_le (Nat.le_of_lt_succ hlt)
    · exact .inr ⟨⟨hj, hopen, fun k hjk hk => hkeep k hjk (by omega)⟩, hkeep _ hj (by omega)⟩
    · exact .inl ⟨rfl, hopen⟩
  · rintro (⟨rfl, hopen⟩ | ⟨⟨hlt, hopen, hkeep⟩, hlast⟩)
    · exact ⟨by omega, hopen, fun k hjk hk => by omega⟩
    · refine ⟨by omega, hopen, fun k hjk hk => ?_⟩
      obtain hk | rfl := Nat.lt_or_eq_of_le (Nat.le_of_lt_succ hk)
      · exact hkeep k hjk hk
      · exact hlast

end OpenSince

end DiskLens
