import DiskLens.Cli.Command
import Mathlib.Algebra.Group.Nat.Defs

/-!
# Cursors on the command line

A number on the command line has a bounded number of digits, so the cursor of a command can be
written wherever numbers of this length are read.

* `readInteger?_lt`: a written integer is below a power of ten.
* **`parseCommandLine_complete`**, **`parseCommandLine_hover`**: the cursor of a command.
-/

namespace DiskLens

/-! ## Digits -/

theorem digitValue?_lt {c : Char} {d : Nat} (h : digitValue? c = some d) : d < 10 := by
  obtain ⟨z, hz, rfl⟩ := Option.map_eq_some_iff.mp h
  have hbounds := List.find?_some hz
  simp only [Bool.and_eq_true, decide_eq_true_eq] at hbounds
  omega

theorem digitRun?_lt {digit? : Char → Option Nat} (hdigit : ∀ {c d}, digit? c = some d → d < 10)
    {s : List Char} {ds : List Nat} (h : digitRun? digit? s = some ds) : ∀ d ∈ ds, d < 10 := by
  fun_induction digitRun? digit? s generalizing ds with
  | case1 => cases h
  | case2 c =>
    obtain ⟨d, hd, rfl⟩ := Option.map_eq_some_iff.mp h
    simpa using hdigit hd
  | case3 c cs ih | case4 c cs _ _ ih =>
    simp only [Option.bind_eq_bind, Option.bind_eq_some_iff, Option.pure_def,
      Option.some.injEq] at h
    obtain ⟨d, hd, ds, hds, rfl⟩ := h
    exact List.forall_mem_cons.mpr ⟨hdigit hd, ih hds⟩

theorem ofDigits_lt {ds : List Nat} (h : ∀ d ∈ ds, d < 10) : ofDigits ds < 10 ^ ds.length := by
  -- with any number before the digits, for the induction
  have hfold : ∀ n, ds.foldl (fun n d => 10 * n + d) n < (n + 1) * 10 ^ ds.length := by
    induction ds with
    | nil => simp
    | cons d ds ih =>
      intro n
      rw [List.forall_mem_cons] at h
      have hstep := ih h.2 (10 * n + d)
      have hle : (10 * n + d + 1) * 10 ^ ds.length ≤ (10 * (n + 1)) * 10 ^ ds.length :=
        Nat.mul_le_mul_right _ (by omega)
      rw [List.foldl_cons, List.length_cons, Nat.pow_succ]
      calc _ < _ := hstep
        _ ≤ _ := hle
        _ = _ := by rw [Nat.mul_comm 10 (n + 1), Nat.mul_assoc, Nat.mul_comm 10]
  simpa [ofDigits] using hfold 0

/-- **A written integer is below a power of ten.** -/
theorem readInteger?_lt {s : List Char} {n : Nat} (h : readInteger? s = some (n : Int)) :
    n < 10 ^ maxDigits := by
  simp only [readInteger?, Option.bind_eq_bind, Option.bind_eq_some_iff] at h
  obtain ⟨ds, hds, h⟩ := h
  split at h
  next hlength =>
    have hvalue : n = ofDigits ds := by
      rw [Option.pure_def, Option.some.injEq] at h
      split at h <;> omega
    rw [hvalue]
    exact Nat.lt_of_lt_of_le (ofDigits_lt (digitRun?_lt digitValue?_lt hds))
      (Nat.pow_le_pow_right (by decide) hlength)
  next => cases h

/-! ## Commands -/

theorem cursorOf_lt {t : Taken} {n : Nat} (h : cursorOf t = .value (n : Int)) :
    n < 10 ^ maxDigits := by
  unfold cursorOf Choice.read at h
  split at h
  next => cases h
  next => cases h
  next text =>
    split at h
    next m hm =>
      cases h
      exact readInteger?_lt hm
    next => cases h

variable {arguments : List String} {options : CommandOptions} {line : String} {n : Nat}

theorem parseCommandLine_command {command : Command}
    (h : parseCommandLine arguments = .ok (options, command)) :
    ∃ (word : CommandWord) (t : Taken), command = word.command t := by
  simp only [parseCommandLine, bind, Except.bind] at h
  split at h
  next => cases h
  next =>
    split at h
    next => cases h
    next word _ =>
      split at h
      next => cases h
      next u _ =>
        split at h
        next => cases h
        next => exact ⟨word, u, (congrArg Prod.snd (Except.ok.inj h)).symm⟩

/-- **The cursor of a completion.** -/
theorem parseCommandLine_complete {trigger : Choice TriggerChar} {keyboard : Bool}
    (h : parseCommandLine arguments =
      .ok (options, .complete line (.value (n : Int)) trigger keyboard)) :
    (Nat.toDigits 10 n).length ≤ maxDigits := by
  obtain ⟨word, t, hcommand⟩ := parseCommandLine_command h
  rw [Nat.length_toDigits_le_iff (by decide) (by decide)]
  cases word with
  | complete => exact cursorOf_lt (Command.complete.inj hcommand).2.1.symm
  | outline | hover | param => cases hcommand

/-- **The cursor of a hover.** -/
theorem parseCommandLine_hover
    (h : parseCommandLine arguments = .ok (options, .hover line (some (n : Int)))) :
    (Nat.toDigits 10 n).length ≤ maxDigits := by
  obtain ⟨word, t, hcommand⟩ := parseCommandLine_command h
  rw [Nat.length_toDigits_le_iff (by decide) (by decide)]
  cases word with
  | hover =>
    have hcursor : (cursorOf t).toOption = some (n : Int) := (Command.hover.inj hcommand).2.symm
    refine cursorOf_lt (t := t) ?_
    cases ht : cursorOf t with
    | value m =>
      rw [ht] at hcursor
      rw [Option.some.inj hcursor]
    | unset | blank =>
      rw [ht] at hcursor
      cases hcursor
  | outline | complete | param => cases hcommand

end DiskLens
