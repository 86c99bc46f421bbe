import DiskLens.Proofs.Outline.Cancellation
import DiskLens.Proofs.Outline.Growth

/-!
# Parameter files line by line

A parameter file has no memory: what stands on a line is told by that line, and the lines before it
only say how far down it is. So outlines of parameter files can be put together from those of their
parts.

* `blockSymbol?_add`: the symbol of a line further down.
* **`blockState_append`**: the symbols of lines that come one after the other.
* `Symbol.onLine`: the symbols on one line; **`onLine_blockState`**: they are told by that line.
* **`parameterOutline_append`**: the outline of a joined file, and of a file that was edited.
-/

namespace DiskLens

/-! ## Lines one after the other -/

theorem blockSymbol?_add (n i : Nat) (line : List Char) :
    blockSymbol? (n + i) line = (blockSymbol? i line).map (Symbol.shift n) := by
  unfold blockSymbol?
  rw [Option.map_map]
  rfl

theorem blockState_append (lines more : List (List Char)) :
    blockState (lines ++ more) =
      blockState lines ++ (blockState more).map (Symbol.shift lines.length) := by
  -- induction on the lines that follow, from their end
  induction more using List.reverseRecOn with
  | nil => simp [blockState]
  | append_singleton more line ih =>
    rw [← List.append_assoc, blockState_snoc, blockState_snoc, ih, List.length_append]
    unfold blockStep
    rw [blockSymbol?_add, List.map_append, List.append_assoc]
    cases blockSymbol? more.length line <;> rfl

/-! ## The symbols on a line -/

/-- The symbols that start on line `i`. -/
def Symbol.onLine (i : Nat) (symbols : List Symbol) : List Symbol :=
  symbols.filter (·.line = i)

theorem line_lt_of_mem_blockState {lines : List (List Char)} {s : Symbol}
    (h : s ∈ blockState lines) : s.line < lines.length :=
  (blockState_placed lines).overLines.line_lt (Symbol.mem_allNodes_of_mem h)

theorem onLine_blockState_of_le {lines : List (List Char)} {i : Nat} (h : lines.length ≤ i) :
    Symbol.onLine i (blockState lines) = [] := by
  refine List.filter_eq_nil_iff.mpr fun s hs => ?_
  have := line_lt_of_mem_blockState hs
  simp only [decide_eq_true_eq]
  omega

theorem line_of_blockSymbol? {n : Nat} {line : List Char} {s : Symbol}
    (h : blockSymbol? n line = some s) : s.line = n := by
  obtain ⟨title, -, rfl⟩ := Option.map_eq_some_iff.mp h
  rfl

theorem onLine_blockSymbol? (i n : Nat) (line : List Char) :
    Symbol.onLine i (blockSymbol? n line).toList =
      if n = i then (blockSymbol? n line).toList else [] := by
  cases h : blockSymbol? n line with
  | none => simp [Symbol.onLine]
  | some s =>
    have hline := line_of_blockSymbol? h
    by_cases hn : n = i <;> simp [Symbol.onLine, hline, hn]

theorem onLine_blockState (lines : List (List Char)) (i : Nat) :
    Symbol.onLine i (blockState lines) = (lines[i]?.bind (blockSymbol? i)).toList := by
  induction lines using List.reverseRecOn with
  | nil => rfl
  | append_singleton lines line ih =>
    have hsnoc : Symbol.onLine i (blockState (lines ++ [line])) =
        Symbol.onLine i (blockState lines) ++
          Symbol.onLine i (blockSymbol? lines.length line).toList := by
      rw [blockState_snoc, blockStep]
      exact List.filter_append ..
    rw [hsnoc, onLine_blockSymbol?]
    by_cases hi : lines.length = i
    · subst hi
      rw [onLine_blockState_of_le (Nat.le_refl _), if_pos rfl, List.getElem?_concat_length]
      rfl
    · rw [if_neg hi, List.append_nil, ih]
      obtain hlt | hgt := Nat.lt_or_gt_of_ne hi
      · rw [List.getElem?_eq_none (by omega), List.getElem?_eq_none (by simp; omega)]
      · rw [List.getElem?_append_left hgt]

/-! ## Outlines -/

theorem CancelToken.Outlasts.mono {token : Option CancelToken} {m n : Nat} (h : Outlasts token n)
    (hmn : m ≤ n) : Outlasts token m := by
  intro t ht k hk
  exact h t ht k (by omega)

/-- **Parameter files can be read in parts.** The outline of two files that are joined by a line
feed is that of the one, and then that of the other as many lines further down as the first one has.
So what stands on a line is told by this line: in any two files that have the same line in some
places, the same stands there, but for the number of the line. -/
theorem parameterOutline_append :
    (∀ (a b : String) (token : Option CancelToken),
      CancelToken.Outlasts token (splitLines (a ++ "\n" ++ b).toList).length →
        parameterOutline (a ++ "\n" ++ b) token = parameterOutline a token ++
          (parameterOutline b token).map (Symbol.shift (splitLines a.toList).length)) ∧
    ∀ (text other : String) (i j : Nat) (token token' : Option CancelToken),
      CancelToken.Outlasts token (splitLines text.toList).length →
      CancelToken.Outlasts token' (splitLines other.toList).length →
      (splitLines text.toList)[i]? = (splitLines other.toList)[j]? →
        (Symbol.onLine i (parameterOutline text token)).map (Symbol.shift j) =
          (Symbol.onLine j (parameterOutline other token')).map (Symbol.shift i) := by
  constructor
  · intro a b token hlast
    have hlines : splitLines (a ++ "\n" ++ b).toList =
        splitLines a.toList ++ splitLines b.toList := by
      rw [← splitLines_append]
      simp
    have hlength := congrArg List.length hlines
    rw [List.length_append] at hlength
    rw [(parameterOutline_cases _ token).1 hlast,
      (parameterOutline_cases a token).1 (hlast.mono (by omega)),
      (parameterOutline_cases b token).1 (hlast.mono (by omega)), hlines, blockState_append]
  · intro text other i j token token' htext hother hline
    rw [(parameterOutline_cases text token).1 htext, (parameterOutline_cases other token').1 hother,
      onLine_blockState, onLine_blockState, hline]
    cases (splitLines other.toList)[j]? with
    | none => rfl
    | some line =>
      rw [Option.bind_some, Option.bind_some, ← Option.toList_map, ← Option.toList_map,
        ← blockSymbol?_add, ← blockSymbol?_add, Nat.add_comm]

/-- A carriage return and an empty line at the seam, under a token that just lasts; the last line is
that of another file, three lines further down. -/
theorem parameterOutline_append_at_seam :
    let a := "x\n- disk -\r"
    let b := "\n-- dust --"
    let other := "-- dust --\n- gas -"
    let token := some (CancelToken.fresh 4)
    CancelToken.Outlasts token (splitLines (a ++ "\n" ++ b).toList).length ∧
      parameterOutline (a ++ "\n" ++ b) token =
        parameterOutline a token ++ (parameterOutline b token).map (Symbol.shift 2) ∧
      (parameterOutline (a ++ "\n" ++ b) token).map Symbol.head = [("disk", 1), ("dust", 3)] ∧
      (splitLines (a ++ "\n" ++ b).toList)[3]? = (splitLines other.toList)[0]? ∧
      (Symbol.onLine 3 (parameterOutline (a ++ "\n" ++ b) token)).map (Symbol.shift 0) =
        (Symbol.onLine 0 (parameterOutline other none)).map (Symbol.shift 3) := by
  intro a b other token
  have hlength : (splitLines (a ++ "\n" ++ b).toList).length = 4 := by decide +kernel
  have hlast : CancelToken.Outlasts token (splitLines (a ++ "\n" ++ b).toList).length :=
    CancelToken.outlasts_fresh.mpr (by omega)
  have hline : (splitLines (a ++ "\n" ++ b).toList)[3]? = (splitLines other.toList)[0]? := by
    decide +kernel
  have hparts := parameterOutline_append.1 a b token hlast
  have hseam : (splitLines a.toList).length = 2 := by decide +kernel
  rw [hseam] at hparts
  refine ⟨hlast, hparts, by decide +kernel, hline, ?_⟩
  exact parameterOutline_append.2 _ other 3 0 token none hlast (CancelToken.outlasts_none _) hline

end DiskLens
