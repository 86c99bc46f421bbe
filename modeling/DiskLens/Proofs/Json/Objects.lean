import DiskLens.Json.Reader
import DiskLens.Json.Writer
import Mathlib.Data.List.Basic
import Mathlib.Data.List.TakeWhile

/-!
# Entries, texts and numbers

* `Json.entry?_setEntry`, `Json.entry?_filter`: the entries of an object after a change.
* **`Json.readText_textChar`**: a text is read as it is written.
* **`Json.readAtom_toDigits`**: a number is read as it is written.
-/

namespace DiskLens

theorem WideText.ofString_inj {s t : String} : ofString s = ofString t ↔ s = t := by
  simp [ofString, ofChars, List.map_inj_right, String.toList_inj]

namespace Json

/-! ## Entries -/

section Entries

variable {κ α : Type} [DecidableEq κ] {key key' : κ} {value : α} {entries : List (κ × α)}

theorem entry?_cons (entry : κ × α) :
    entry? key (entry :: entries) = if entry.1 = key then some entry.2 else entry? key entries := by
  unfold entry?
  by_cases h : entry.1 = key <;> simp [h]

/-- The value that was written, or the one of before. -/
theorem entry?_setEntry :
    entry? key (setEntry key' value entries) =
      if key = key' then some value else entry? key entries := by
  induction entries with
  | nil => simp [setEntry, entry?, eq_comm]
  | cons entry entries ih =>
    rw [setEntry, entry?_cons]
    by_cases hentry : entry.1 = key'
    · rw [if_pos hentry, entry?_cons]
      by_cases hkey : key = key'
      · simp [hentry, hkey]
      · simp [hentry, hkey, Ne.symm hkey]
    · rw [if_neg hentry, entry?_cons, ih]
      by_cases hkey : key = key'
      · subst hkey
        simp [hentry]
      · simp [hkey]

/-- The value of before, unless its key was taken out. -/
theorem entry?_filter :
    entry? key (entries.filter (·.1 ≠ key')) = if key = key' then none else entry? key entries := by
  induction entries with
  | nil => simp [Json.entry?]
  | cons entry entries ih =>
    by_cases hentry : entry.1 = key'
    · rw [List.filter_cons_of_neg (by simp [hentry]), ih, entry?_cons]
      by_cases hkey : key = key'
      · simp [hkey]
      · simp [hentry, hkey, Ne.symm hkey]
    · rw [List.filter_cons_of_pos (by simp [hentry]), entry?_cons, ih, entry?_cons]
      by_cases hkey : key = key'
      · subst hkey
        simp [hentry]
      · simp [hkey]

end Entries

/-! ## Texts -/

theorem joinEscapes_escaped {n : Nat} (hn : isHighSurrogate n = false) (units : List LiteralUnit) :
    joinEscapes (.escaped n :: units) = .ofNat n :: joinEscapes units := by
  cases units with
  | nil => rfl
  | cons unit units => cases unit <;> simp [joinEscapes, hn]

theorem unit?_hexDigits {n : Nat} (hn : n < 0x20) :
    unit? (hexDigit (n / 16 / 16 / 16 % 16)) (hexDigit (n / 16 / 16 % 16)) (hexDigit (n / 16 % 16))
      (hexDigit (n % 16)) = some n := by
  revert n
  decide

/-- How a character is written: behind a backslash, by its code, or as it stands. -/
theorem textChar_cases (c : Char) :
    (∃ e, e ≠ 'u' ∧ simpleEscape? e = some c ∧ textChar c = ['\\', e]) ∨
      (c.toNat < 0x20 ∧ textChar c = '\\' :: 'u' :: hexDigits 4 c.toNat) ∨
      (c ≠ '"' ∧ c ≠ '\\' ∧ ¬ c.toNat < 0x20 ∧ textChar c = [c]) := by
  have hsimple : ∀ e d, e ≠ 'u' → simpleEscape? e = some d → c = d → textChar d = ['\\', e] →
      ∃ e, e ≠ 'u' ∧ simpleEscape? e = some c ∧ textChar c = ['\\', e] := by
    rintro e d hu he rfl htext
    exact ⟨e, hu, he, htext⟩
  by_cases hquote : c = '"'
  · exact .inl (hsimple '"' _ (by decide) rfl hquote rfl)
  by_cases hslash : c = '\\'
  · exact .inl (hsimple '\\' _ (by decide) rfl hslash rfl)
  by_cases hback : c = '\x08'
  · exact .inl (hsimple 'b' _ (by decide) rfl hback rfl)
  by_cases htab : c = '\t'
  · exact .inl (hsimple 't' _ (by decide) rfl htab rfl)
  by_cases hline : c = '\n'
  · exact .inl (hsimple 'n' _ (by decide) rfl hline rfl)
  by_cases hpage : c = '\x0c'
  · exact .inl (hsimple 'f' _ (by decide) rfl hpage rfl)
  by_cases hreturn : c = '\r'
  · exact .inl (hsimple 'r' _ (by decide) rfl hreturn rfl)
  have htext : textChar c =
      if c.toNat < 0x20 then '\\' :: 'u' :: hexDigits 4 c.toNat else [c] := by
    simp only [textChar, hquote, hslash, hback, htab, hline, hpage, hreturn, if_false]
  by_cases hcode : c.toNat < 0x20
  · exact .inr (.inl ⟨hcode, by rw [htext, if_pos hcode]⟩)
  · exact .inr (.inr ⟨hquote, hslash, hcode, by rw [htext, if_neg hcode]⟩)

/-- **A character is read as it is written.** -/
theorem readUnits_textChar (c : Char) {s rest : WideText} {units : List LiteralUnit}
    (h : readUnits s = some (units, rest)) :
    ∃ unit, readUnits (.ofChars (textChar c) ++ s) = some (unit :: units, rest) ∧
      joinEscapes (unit :: units) = .char c :: joinEscapes units := by
  obtain ⟨e, hu, he, htext⟩ | ⟨hcode, htext⟩ | ⟨hquote, hslash, hcode, htext⟩ := textChar_cases c
  · refine ⟨.plain (.char c), ?_, rfl⟩
    simp [htext, WideText.ofChars, readUnits, hu, he, h]
  · refine ⟨.escaped c.toNat, ?_, ?_⟩
    · simp [htext, hexDigits, WideText.ofChars, readUnits, unit?_hexDigits hcode, h]
    · have hhalf : isSurrogate c.toNat = false ∧ isHighSurrogate c.toNat = false := by
        simp [isSurrogate, isHighSurrogate, isLowSurrogate]
        omega
      rw [joinEscapes_escaped hhalf.2, CodePoint.ofNat, hhalf.1]
      simp
  · refine ⟨.plain (.char c), ?_, rfl⟩
    simp [htext, WideText.ofChars, readUnits, hslash, hcode, h]

/-- **A text is read as it is written.** -/
theorem readText_textChar (s : List Char) (rest : WideText) :
    readText (.ofChars (s.flatMap textChar) ++ .char '"' :: rest) = some (.ofChars s, rest) := by
  have hunits : ∃ units, readUnits (.ofChars (s.flatMap textChar) ++ .char '"' :: rest) =
      some (units, rest) ∧ joinEscapes units = .ofChars s := by
    induction s with
    | nil => exact ⟨[], by simp [WideText.ofChars, readUnits], rfl⟩
    | cons c s ih =>
      obtain ⟨units, hread, hjoin⟩ := ih
      obtain ⟨unit, hread', hjoin'⟩ := readUnits_textChar c hread
      refine ⟨unit :: units, ?_, by rw [hjoin', hjoin]; rfl⟩
      rw [← hread']
      simp [WideText.ofChars]
  obtain ⟨units, hread, hjoin⟩ := hunits
  simp only [readText, hread, Option.map_some, hjoin]

/-! ## Numbers -/

theorem toNat_of_isDigit {c : Char} (hc : c.isDigit) : 48 ≤ c.toNat ∧ c.toNat ≤ 57 := by
  simpa [Char.isDigit, UInt32.le_iff_toNat_le] using hc

theorem asciiDigit?_of_isDigit {c : Char} (hc : c.isDigit) :
    asciiDigit? c = some (c.toNat - 48) := by
  have hbounds : '0' ≤ c ∧ c ≤ '9' := by simpa [Char.isDigit, Char.le_def] using hc
  simp [asciiDigit?, hbounds]

/-- A number starts with a digit and hence with nothing else that has a meaning. -/
theorem exists_first_digit (n : Nat) :
    ∃ d ds, Nat.toDigits 10 n = d :: ds ∧ ∀ c : Char, c.isDigit = false → d ≠ c := by
  obtain ⟨d, ds, hds⟩ := List.exists_cons_of_ne_nil (Nat.toDigits_ne_nil (n := n) (b := 10))
  have hd : d.isDigit :=
    Nat.isDigit_of_mem_toDigits (b := 10) (n := n) (by decide) (by decide) (by simp [hds])
  refine ⟨d, ds, hds, ?_⟩
  rintro c hc rfl
  exact Bool.false_ne_true (hc.symm.trans hd)

/-- The first digit of a number is zero only for zero itself. -/
theorem toDigits_head {n : Nat} (hn : 0 < n) :
    ∃ d ds, Nat.toDigits 10 n = d :: ds ∧ d ≠ '0' := by
  induction n using Nat.strongRecOn with
  | ind n ih =>
    rw [Nat.toDigits_eq_if (by decide)]
    by_cases hlt : n < 10
    · have hchar : ∀ m < 10, 0 < m → m.digitChar ≠ '0' := by decide
      exact ⟨n.digitChar, [], by rw [if_pos hlt], hchar n hlt hn⟩
    · obtain ⟨d, ds, hds, hd⟩ := ih (n / 10) (by omega) (by omega)
      exact ⟨d, ds ++ [(n % 10).digitChar], by rw [if_neg hlt, hds]; rfl, hd⟩

theorem takeDigits_toDigits (n : Nat) :
    takeDigits (Nat.toDigits 10 n) = ((Nat.toDigits 10 n).map (·.toNat - 48), []) := by
  have hdigits : ∀ c ∈ Nat.toDigits 10 n, asciiDigit? c = some (c.toNat - 48) := fun c hc =>
    asciiDigit?_of_isDigit (Nat.isDigit_of_mem_toDigits (by decide) (by decide) hc)
  have hsome : ∀ c ∈ Nat.toDigits 10 n, (asciiDigit? c).isSome := fun c hc => by
    rw [hdigits c hc]
    rfl
  have htake : (Nat.toDigits 10 n).takeWhile (asciiDigit? · |>.isSome) = Nat.toDigits 10 n :=
    List.takeWhile_eq_self_iff.mpr hsome
  have hdrop : (Nat.toDigits 10 n).dropWhile (asciiDigit? · |>.isSome) = [] :=
    List.dropWhile_eq_nil_iff.mpr hsome
  rw [takeDigits, htake, hdrop, List.filterMap_eq_map_iff_forall_eq_some.mpr hdigits]

theorem readWhole_toDigits (n : Nat) :
    readWhole true (Nat.toDigits 10 n) = some ((Nat.toDigits 10 n).map (·.toNat - 48), []) := by
  rw [readWhole, takeDigits_toDigits]
  by_cases hn : n = 0
  · rw [hn]
    rfl
  · obtain ⟨d, ds, hds, hd⟩ := toDigits_head (Nat.pos_of_ne_zero hn)
    have hdigit : d.isDigit :=
      Nat.isDigit_of_mem_toDigits (b := 10) (n := n) (by decide) (by decide) (by simp [hds])
    have hvalue : d.toNat - 48 ≠ 0 := by
      intro hzero
      obtain ⟨hlow, -⟩ := toNat_of_isDigit hdigit
      exact hd (Char.toNat_inj.mp (by change d.toNat = 48; omega))
    rw [hds, List.map_cons]
    split
    next h => simp at h
    next h => simp_all
    next h => simp_all

theorem ofDigits_toDigits (n : Nat) : ofDigits ((Nat.toDigits 10 n).map (·.toNat - 48)) = n := by
  have hvalue : Nat.ofDigitChars 10 (Nat.toDigits 10 n) 0 = n :=
    Nat.ofDigitChars_toDigits (by decide) (by decide)
  rw [ofDigits, List.foldl_map]
  exact hvalue

theorem readNumeral_toDigits (n : Nat) :
    readNumeral true (Nat.toDigits 10 n) =
      some (⟨false, (Nat.toDigits 10 n).map (·.toNat - 48), none, none⟩, []) := by
  have hminus : takeMinus (Nat.toDigits 10 n) = (false, Nat.toDigits 10 n) := by
    obtain ⟨d, ds, hds, hne⟩ := exists_first_digit n
    rw [hds]
    unfold takeMinus
    split
    next h => exact absurd (List.cons.inj h).1 (hne '-' (by decide))
    next => rfl
  rw [readNumeral, hminus]
  simp [readWhole_toDigits, readFraction, readExponent]

theorem numeralChars_append {ds : List Char} (hds : ∀ c ∈ ds, c.isDigit) {rest : WideText}
    (hrest : numeralChars rest = []) : numeralChars (.ofChars ds ++ rest) = ds := by
  induction ds with
  | nil => exact hrest
  | cons d ds ih =>
    rw [List.forall_mem_cons] at hds
    have hd : isNumeralChar d := by simp [isNumeralChar, asciiDigit?_of_isDigit hds.1]
    simp only [WideText.ofChars, List.map_cons, List.cons_append, numeralChars, hd, if_true]
    exact congrArg (d :: ·) (ih hds.2)

theorem readAtom_toDigits {n : Nat} (hn : (Nat.toDigits 10 n).length ≤ maxDigits)
    {rest : WideText} (hrest : numeralChars rest = []) :
    readAtom .body (WideText.ofChars (Nat.toDigits 10 n) ++ rest) = .ok (.int n, rest) := by
  have hdigits : ∀ c ∈ Nat.toDigits 10 n, c.isDigit := fun c hc =>
    Nat.isDigit_of_mem_toDigits (by decide) (by decide) hc
  have hwords : ∀ entry ∈ words true,
      afterWord? entry.1 (WideText.ofChars (Nat.toDigits 10 n) ++ rest) = none := by
    obtain ⟨d, ds, hds, hne⟩ := exists_first_digit n
    have hne' : ∀ c : Char, c.isDigit = false → c ≠ d := fun c hc => (hne c hc).symm
    simp [words, afterWord?, hds, WideText.ofChars, WideText.ofString, hne']
  have hvalue :
      Numeral.value ⟨960, true⟩ ⟨false, (Nat.toDigits 10 n).map (·.toNat - 48), none, none⟩ =
        .ok (.int n : WideJson) := by
    simp [Numeral.value, Numeral.toInt, hn, ofDigits_toDigits]
  have hdrop : (WideText.ofChars (Nat.toDigits 10 n) ++ rest).drop (Nat.toDigits 10 n).length =
      rest := by
    simp [WideText.ofChars]
  unfold readAtom
  split
  next found hfound =>
    obtain ⟨⟨word, j⟩, hmem, hafter⟩ := List.exists_of_findSome?_eq_some hfound
    have hword := hwords (word, j) hmem
    simp [hword] at hafter
  next =>
    simp only [JsonDialect.body, numeralChars_append hdigits hrest, readNumeral_toDigits, hvalue,
      List.length_nil, Nat.sub_zero, hdrop]
    rfl

end Json

end DiskLens
