import DiskLens.Proofs.Json.Objects

/-!
# Written values are read back

Answers and requests are written on indented lines, and whoever gets them reads them. A value comes
back as it was if it has no fractions, its numbers are not too long, the keys of its objects are
distinct and it has not too many levels.

* `Json.ReadsAs`: a text is read as a value, wherever no number goes on behind it.
* `Json.readItems_pretty`, `Json.readEntries_pretty`: what stands in arrays and objects.
* **`Json.Writable`**: the values that come back; `Json.Writable.readsAs`: they do.
* **`Json.readWide_pretty`**: the text of such a value, with blanks behind it.
* **`Json.decoded?`**: the value of a printed text; `Json.decoded?_pretty`.
-/

namespace DiskLens

namespace JsonOf

variable {τ σ : Type}

theorem mapItems_eq_map (f : τ → σ) (items : List (JsonOf τ)) :
    mapItems f items = items.map (mapText f) := by
  induction items with
  | nil => rfl
  | cons j items ih => rw [mapItems, ih, List.map_cons]

theorem mapEntries_eq_map (f : τ → σ) (entries : List (τ × JsonOf τ)) :
    mapEntries f entries = entries.map (Prod.map f (mapText f)) := by
  induction entries with
  | nil => rfl
  | cons entry entries ih => rw [mapEntries, ih, List.map_cons, Prod.map]

end JsonOf

namespace WideText

theorem ofString_append (s t : String) : ofString (s ++ t) = ofString s ++ ofString t := by
  simp [ofString, ofChars]

theorem hasHalf_ofString (s : String) : (ofString s).hasHalf = false := by
  simp [hasHalf, ofString, ofChars, CodePoint.isHalf, CodePoint.half?]

theorem fillWith_ofString (c : Char) (s : String) : (ofString s).fillWith c = s := by
  simp [fillWith, ofString, ofChars, Function.comp_def, CodePoint.charOr]

@[simp] theorem fill_ofString (s : String) : (ofString s).fill = s := fillWith_ofString filler s

end WideText

namespace Json

/-! ## Blanks -/

theorem skipSpace_cons {p : CodePoint} (hp : isSpace p = false) (s : WideText) :
    skipSpace (p :: s) = p :: s :=
  List.dropWhile_cons_of_neg (by simp [hp])

theorem length_newLine (level : Nat) : (newLine level).length = 2 * level + 1 := by
  simp [newLine, ← String.length_toList, Nat.add_comm]

theorem skipSpace_newLine (level : Nat) (s : WideText) :
    skipSpace (.ofString (newLine level) ++ s) = skipSpace s := by
  refine List.dropWhile_append_of_pos fun p hp => ?_
  obtain ⟨c, hc, rfl⟩ : ∃ c, c ∈ (newLine level).toList ∧ .char c = p := List.mem_map.mp hp
  obtain rfl | ⟨-, rfl⟩ : c = '\n' ∨ 2 * level ≠ 0 ∧ c = ' ' := by
    simpa [newLine, List.mem_replicate] using hc
  · rfl
  · rfl

section Blanks

variable {dialect : JsonDialect} {depth fuel : Nat} {s : WideText}

theorem readValue_newLine (level : Nat) :
    readValue dialect depth fuel (.ofString (newLine level) ++ s) =
      readValue dialect depth fuel s := by
  cases fuel with
  | zero => rfl
  | succ fuel => rw [readValue, readValue, skipSpace_newLine]

theorem readItems_newLine {done : List WideJson} (level : Nat) :
    readItems dialect depth done fuel (.ofString (newLine level) ++ s) =
      readItems dialect depth done fuel s := by
  cases fuel with
  | zero => rfl
  | succ fuel => rw [readItems, readItems, readValue_newLine]

theorem readEntries_newLine {done : List (WideText × WideJson)} (level : Nat) :
    readEntries dialect depth done fuel (.ofString (newLine level) ++ s) =
      readEntries dialect depth done fuel s := by
  cases fuel with
  | zero => rfl
  | succ fuel => rw [readEntries, readEntries, skipSpace_newLine]

/-- An array that is not empty is read item by item. -/
theorem readValue_openBracket {cs : WideText} {c : Char} (h : skipSpace s = .char c :: cs)
    (hc : c ≠ ']') :
    readValue dialect (depth + 1) (fuel + 1) (.char '[' :: s) =
      readItems dialect depth [] fuel (.char c :: cs) := by
  simp only [readValue, skipSpace_cons (p := .char '[') rfl, h]
  simp [hc]

/-- An object that is not empty is read entry by entry. -/
theorem readValue_openBrace {cs : WideText} {c : Char} (h : skipSpace s = .char c :: cs)
    (hc : c ≠ '}') :
    readValue dialect (depth + 1) (fuel + 1) (.char '{' :: s) =
      readEntries dialect depth [] fuel (.char c :: cs) := by
  simp only [readValue, skipSpace_cons (p := .char '{') rfl, h]
  simp [hc]

end Blanks

/-! ## Values without parts -/

/-- **The text is read as the value**, with `depth` levels to open and wherever no number goes on
behind it. -/
def ReadsAs (depth : Nat) (text : String) (value : WideJson) : Prop :=
  ∀ (fuel : Nat) (rest : WideText), text.length ≤ fuel + 1 → numeralChars rest = [] →
    readValue .body depth (fuel + 1) (.ofString text ++ rest) = .ok (value, rest)

theorem readsAs_word {word : String} {value : WideJson} (h : (word, value) ∈ words false)
    (depth : Nat) : ReadsAs depth word value := by
  intro fuel rest _ _
  simp only [words, List.append_nil, if_false, List.mem_cons, Prod.mk.injEq, List.not_mem_nil,
    or_false, Bool.false_eq_true] at h
  rcases h with ⟨rfl, rfl⟩ | ⟨rfl, rfl⟩ | ⟨rfl, rfl⟩ <;>
    simp [readValue, skipSpace, WideText.ofString, WideText.ofChars, isSpace, readAtom, words,
      afterWord?] <;>
    rfl

theorem readsAs_str (s : String) (depth : Nat) :
    ReadsAs depth (textLiteral s) (.str (.ofString s)) := by
  intro fuel rest _ _
  have htext : WideText.ofString (textLiteral s) ++ rest =
      .char '"' :: (WideText.ofChars (s.toList.flatMap textChar) ++ .char '"' :: rest) := by
    simp [textLiteral, WideText.ofString, WideText.ofChars]
  rw [htext, readValue, skipSpace_cons rfl]
  simp [readText_textChar]
  rfl

theorem toString_natCast (n : Nat) : toString (n : Int) = String.ofList (Nat.toDigits 10 n) := by
  rw [← String.toList_inj, Int.toString_eq_repr, Int.repr_eq_if]
  simp

theorem readsAs_nat {n : Nat} (hn : (Nat.toDigits 10 n).length ≤ maxDigits) (depth : Nat) :
    ReadsAs depth (toString (n : Int)) (.int n) := by
  intro fuel rest _ hrest
  obtain ⟨d, ds, hds, hne⟩ := exists_first_digit n
  have hskip : skipSpace (WideText.ofChars (Nat.toDigits 10 n) ++ rest) =
      .char d :: (WideText.ofChars ds ++ rest) := by
    have hspace : isSpace (.char d) = false := by simp [isSpace, hne]
    simp [skipSpace, hds, WideText.ofChars, hspace]
  rw [toString_natCast, WideText.ofString, String.toList_ofList, readValue, hskip]
  -- a digit opens neither a text nor an array nor an object
  split
  next h => exact absurd (CodePoint.char.inj (List.cons.inj h).1) (hne '"' (by decide))
  next h => exact absurd (CodePoint.char.inj (List.cons.inj h).1) (hne '[' (by decide))
  next h => exact absurd (CodePoint.char.inj (List.cons.inj h).1) (hne '{' (by decide))
  next =>
    rw [← readAtom_toDigits hn hrest, hds]
    rfl

/-! ## Arrays and objects -/

theorem numeralChars_newLine (level : Nat) (s : WideText) :
    numeralChars (.ofString (newLine level) ++ s) = [] := by
  simp [newLine, WideText.ofString, WideText.ofChars, numeralChars, isNumeralChar, asciiDigit?]

/-- **The items of an array are read as they are written**, after those that are done. -/
theorem readItems_pretty {depth level level' : Nat} {item : Json} {items : List Json}
    (hreads : ∀ j ∈ item :: items, ReadsAs depth (prettyAt level j) (j.mapText .ofString))
    {fuel : Nat} (hfuel : (prettyAt level item ++ prettyItems level items).length ≤ fuel + 1)
    (done : List WideJson) (rest : WideText) :
    readItems .body depth done (fuel + 2)
        (.ofString (prettyAt level item ++ prettyItems level items ++ newLine level' ++ "]") ++
          rest) =
      .ok (.arr (done.reverse ++ (item :: items).map (JsonOf.mapText .ofString)), rest) := by
  rw [List.forall_mem_cons] at hreads
  rw [String.length_append] at hfuel
  -- induction on the items behind the first one, which is read into `done`
  induction items generalizing item fuel done with
  | nil =>
    have hclose : skipSpace (.ofString (newLine level' ++ "]") ++ rest) = .char ']' :: rest := by
      rw [WideText.ofString_append, List.append_assoc, skipSpace_newLine]
      rfl
    have hend : numeralChars (.ofString (newLine level' ++ "]") ++ rest) = [] := by
      rw [WideText.ofString_append, List.append_assoc, numeralChars_newLine]
    rw [prettyItems, String.append_empty, String.append_assoc, WideText.ofString_append,
      List.append_assoc, readItems, hreads.1 fuel _ (by omega) hend]
    simp [hclose]
  | cons next items ih =>
    let others := prettyAt level next ++ prettyItems level items ++ newLine level' ++ "]"
    have hcomma : WideText.ofString "," = [.char ','] := rfl
    have htext : WideText.ofString (prettyAt level item ++ prettyItems level (next :: items) ++
        newLine level' ++ "]") ++ rest = WideText.ofString (prettyAt level item) ++
          .char ',' :: (.ofString (newLine level) ++ (.ofString others ++ rest)) := by
      simp [prettyItems, others, WideText.ofString_append, hcomma]
    have hlength : (prettyItems level (next :: items)).length = 1 + (2 * level + 1) +
        (prettyAt level next).length + (prettyItems level items).length := by
      simp [prettyItems, length_newLine]
      rfl
    obtain ⟨fuel, rfl⟩ : ∃ k, fuel = k + 1 := ⟨fuel - 1, by omega⟩
    rw [htext, readItems, hreads.1 _ _ (by omega) rfl]
    simp only [skipSpace_cons (p := .char ',') rfl]
    rw [readItems_newLine, ih (List.forall_mem_cons.mp hreads.2) (by omega)]
    simp

/-- One entry, and what follows it. -/
theorem readEntries_entry {depth level : Nat} {key : String} {value : Json}
    (hvalue : ReadsAs depth (prettyAt level value) (value.mapText .ofString)) {fuel : Nat}
    (hfuel : (prettyAt level value).length ≤ fuel + 1) {done : List (WideText × WideJson)}
    {rest : WideText} (hrest : numeralChars rest = []) :
    readEntries .body depth done (fuel + 2)
      (.ofString (textLiteral key ++ ": " ++ prettyAt level value) ++ rest) =
    match skipSpace rest with
      | .char ',' :: cs => readEntries .body depth
          (setEntry (.ofString key) (value.mapText .ofString) done) (fuel + 1) cs
      | .char '}' :: cs => .ok (.obj (setEntry (.ofString key) (value.mapText .ofString) done), cs)
      | _ => .error .malformed := by
  have htext : WideText.ofString (textLiteral key ++ ": " ++ prettyAt level value) ++ rest =
      .char '"' :: (WideText.ofChars (key.toList.flatMap textChar) ++ .char '"' :: .char ':' ::
        .char ' ' :: (WideText.ofString (prettyAt level value) ++ rest)) := by
    simp [textLiteral, WideText.ofString, WideText.ofChars]
  have hspace : ∀ s, readValue .body depth (fuel + 1) (.char ' ' :: s) =
      readValue .body depth (fuel + 1) s := fun _ => rfl
  rw [htext, readEntries, skipSpace_cons rfl]
  simp only [readText_textChar, skipSpace_cons (p := .char ':') rfl, hspace,
    hvalue fuel rest hfuel hrest]
  rfl

/-- A new key comes last. -/
theorem setEntry_of_notMem {κ α : Type} [DecidableEq κ] {key : κ} {value : α}
    {entries : List (κ × α)} (h : key ∉ entries.map Prod.fst) :
    setEntry key value entries = entries ++ [(key, value)] := by
  induction entries with
  | nil => rfl
  | cons entry entries ih =>
    rw [List.map_cons, List.mem_cons, not_or] at h
    rw [setEntry, if_neg (Ne.symm h.1), ih h.2, List.cons_append]

theorem setEntry_mapEntries {key : String} {value : Json} {entries : List (String × Json)}
    (h : key ∉ entries.map Prod.fst) :
    setEntry (.ofString key) (value.mapText .ofString) (JsonOf.mapEntries .ofString entries) =
      JsonOf.mapEntries WideText.ofString (entries ++ [(key, value)]) := by
  rw [setEntry_of_notMem, JsonOf.mapEntries_eq_map, JsonOf.mapEntries_eq_map]
  · simp
  · simpa [JsonOf.mapEntries_eq_map, WideText.ofString_inj] using h

theorem notMem_of_nodup {key : String} {value : Json} {done entries : List (String × Json)}
    (h : ((done ++ (key, value) :: entries).map Prod.fst).Nodup) : key ∉ done.map Prod.fst := by
  rw [List.map_append] at h
  intro hmem
  exact (List.nodup_append.mp h).2.2 _ hmem key (by simp) rfl

/-- **The entries of an object are read as they are written**, after those that are done. -/
theorem readEntries_pretty {depth level level' : Nat} {key : String} {value : Json}
    {entries done : List (String × Json)}
    (hkeys : ((done ++ (key, value) :: entries).map Prod.fst).Nodup)
    (hreads : ∀ e ∈ (key, value) :: entries,
      ReadsAs depth (prettyAt level e.2) (e.2.mapText .ofString))
    {fuel : Nat} (hfuel : (prettyAt level value ++ prettyEntries level entries).length ≤ fuel + 1)
    (rest : WideText) :
    readEntries .body depth (JsonOf.mapEntries .ofString done) (fuel + 2)
      (.ofString (textLiteral key ++ ": " ++ prettyAt level value ++ prettyEntries level entries ++
        newLine level' ++ "\x7d") ++ rest) =
      .ok (.obj (JsonOf.mapEntries .ofString (done ++ (key, value) :: entries)), rest) := by
  rw [List.forall_mem_cons] at hreads
  rw [String.length_append] at hfuel
  -- induction on the entries behind the first one, which is read into `done`
  induction entries generalizing key value done fuel with
  | nil =>
    let close := WideText.ofString (newLine level' ++ "\x7d") ++ rest
    have hclose : skipSpace close = .char '}' :: rest := by
      simp only [close, WideText.ofString_append, List.append_assoc, skipSpace_newLine]
      rfl
    have hend : numeralChars close = [] := by
      simp only [close, WideText.ofString_append, List.append_assoc, numeralChars_newLine]
    have hvalue : (prettyAt level value).length ≤ fuel + 1 := by omega
    rw [prettyEntries, String.append_empty, String.append_assoc, WideText.ofString_append,
      List.append_assoc, readEntries_entry hreads.1 hvalue hend, hclose,
      setEntry_mapEntries (notMem_of_nodup hkeys)]
    rfl
  | cons next entries ih =>
    let others := textLiteral next.1 ++ ": " ++ prettyAt level next.2 ++
      prettyEntries level entries ++ newLine level' ++ "\x7d"
    have hcomma : WideText.ofString "," = [.char ','] := rfl
    have htext : WideText.ofString (textLiteral key ++ ": " ++ prettyAt level value ++
        prettyEntries level (next :: entries) ++ newLine level' ++ "\x7d") ++ rest =
          WideText.ofString (textLiteral key ++ ": " ++ prettyAt level value) ++
          .char ',' :: (.ofString (newLine level) ++ (.ofString others ++ rest)) := by
      simp [prettyEntries, others, WideText.ofString_append, hcomma]
    have hlength : (prettyEntries level (next :: entries)).length = 1 + (2 * level + 1) +
        (textLiteral next.1).length + 2 + (prettyAt level next.2).length +
          (prettyEntries level entries).length := by
      simp [prettyEntries, length_newLine]
      rfl
    obtain ⟨fuel, rfl⟩ : ∃ k, fuel = k + 1 := ⟨fuel - 1, by omega⟩
    have hvalue : (prettyAt level value).length ≤ fuel + 1 + 1 := by omega
    rw [htext, readEntries_entry hreads.1 hvalue rfl, setEntry_mapEntries (notMem_of_nodup hkeys)]
    simp only [skipSpace_cons (p := .char ',') rfl]
    have hkeys' : ((done ++ [(key, value)] ++ next :: entries).map Prod.fst).Nodup := by
      simpa using hkeys
    rw [readEntries_newLine, ih hkeys' (List.forall_mem_cons.mp hreads.2) (by omega)]
    simp

theorem readsAs_arr {depth level : Nat} {item : Json} {items : List Json}
    (hfirst : ∃ c cs, (prettyAt (level + 1) item).toList = c :: cs ∧ isSpace (.char c) = false ∧
      c ≠ ']')
    (hreads : ∀ j ∈ item :: items, ReadsAs depth (prettyAt (level + 1) j) (j.mapText .ofString)) :
    ReadsAs (depth + 1) (prettyAt level (.arr (item :: items)))
      (.arr (JsonOf.mapItems .ofString (item :: items))) := by
  intro fuel rest hfuel _
  obtain ⟨c, cs, hfirst, hspace, hc⟩ := hfirst
  let inner := prettyAt (level + 1) item ++ prettyItems (level + 1) items ++ newLine level ++ "]"
  have htext : prettyAt level (.arr (item :: items)) = "[" ++ (newLine (level + 1) ++ inner) := by
    simp [prettyAt, inner, String.append_assoc]
  have hlength := congrArg String.length htext
  simp only [inner, String.length_append, length_newLine] at hlength
  obtain ⟨fuel, rfl⟩ : ∃ k, fuel = k + 2 := ⟨fuel - 2, by omega⟩
  have hitems : (prettyAt (level + 1) item ++ prettyItems (level + 1) items).length ≤ fuel + 1 := by
    rw [String.length_append]
    omega
  obtain ⟨tail, hinner⟩ : ∃ tail, WideText.ofString inner ++ rest = .char c :: tail :=
    ⟨_, by simp [inner, WideText.ofString, WideText.ofChars, hfirst]; rfl⟩
  have hskip : skipSpace (.ofString (newLine (level + 1) ++ inner) ++ rest) = .char c :: tail := by
    rw [WideText.ofString_append, List.append_assoc, skipSpace_newLine, hinner,
      skipSpace_cons hspace]
  have hopen : WideText.ofString "[" = [.char '['] := rfl
  rw [htext, WideText.ofString_append, hopen, List.append_assoc, List.singleton_append,
    readValue_openBracket hskip hc, ← hinner, readItems_pretty hreads hitems,
    JsonOf.mapItems_eq_map]
  rfl

theorem readsAs_obj {depth level : Nat} {entry : String × Json} {entries : List (String × Json)}
    (hkeys : ((entry :: entries).map Prod.fst).Nodup)
    (hreads : ∀ e ∈ entry :: entries,
      ReadsAs depth (prettyAt (level + 1) e.2) (e.2.mapText .ofString)) :
    ReadsAs (depth + 1) (prettyAt level (.obj (entry :: entries)))
      (.obj (JsonOf.mapEntries .ofString (entry :: entries))) := by
  intro fuel rest hfuel _
  let inner := textLiteral entry.1 ++ ": " ++ prettyAt (level + 1) entry.2 ++
    prettyEntries (level + 1) entries ++ newLine level ++ "\x7d"
  have htext : prettyAt level (.obj (entry :: entries)) =
      "\x7b" ++ (newLine (level + 1) ++ inner) := by
    simp [prettyAt, inner, String.append_assoc]
  have hlength := congrArg String.length htext
  simp only [inner, String.length_append, length_newLine] at hlength
  obtain ⟨fuel, rfl⟩ : ∃ k, fuel = k + 2 := ⟨fuel - 2, by omega⟩
  have hentries :
      (prettyAt (level + 1) entry.2 ++ prettyEntries (level + 1) entries).length ≤ fuel + 1 := by
    rw [String.length_append]
    omega
  obtain ⟨tail, hinner⟩ : ∃ tail, WideText.ofString inner ++ rest = .char '"' :: tail :=
    ⟨_, by simp [inner, textLiteral, WideText.ofString, WideText.ofChars]; rfl⟩
  have hskip :
      skipSpace (.ofString (newLine (level + 1) ++ inner) ++ rest) = .char '"' :: tail := by
    rw [WideText.ofString_append, List.append_assoc, skipSpace_newLine, hinner, skipSpace_cons rfl]
  have hopen : WideText.ofString "\x7b" = [.char '{'] := rfl
  rw [htext, WideText.ofString_append, hopen, List.append_assoc, List.singleton_append,
    readValue_openBrace hskip (by decide), ← hinner]
  have hkeys' : (([] ++ entry :: entries).map Prod.fst).Nodup := hkeys
  exact readEntries_pretty hkeys' hreads hentries rest

/-! ## Values that come back -/

/-- **The values that come back from their text** with up to `depth` levels of arrays and objects:
they have no fractions, no number is negative or too long, and an object has distinct keys. -/
inductive Writable : Nat → Json → Prop
  | null {depth : Nat} : Writable depth .null
  | bool {depth : Nat} (b : Bool) : Writable depth (.bool b)
  | nat {depth n : Nat} (h : (Nat.toDigits 10 n).length ≤ maxDigits) : Writable depth (.int n)
  | str {depth : Nat} (s : String) : Writable depth (.str s)
  | arr {depth : Nat} {items : List Json} (h : ∀ j ∈ items, Writable depth j) :
      Writable (depth + 1) (.arr items)
  | obj {depth : Nat} {entries : List (String × Json)} (hkeys : (entries.map Prod.fst).Nodup)
      (h : ∀ e ∈ entries, Writable depth e.2) : Writable (depth + 1) (.obj entries)

namespace Writable

variable {depth depth' : Nat} {j : Json}

theorem mono (h : Writable depth j) (hle : depth ≤ depth') : Writable depth' j := by
  induction h generalizing depth' with
  | null => exact .null
  | bool b => exact .bool b
  | nat h => exact .nat h
  | str s => exact .str s
  | arr _ ih =>
    obtain ⟨k, rfl⟩ : ∃ k, depth' = k + 1 := ⟨depth' - 1, by omega⟩
    exact .arr fun j hj => ih j hj (by omega)
  | obj hkeys _ ih =>
    obtain ⟨k, rfl⟩ : ∃ k, depth' = k + 1 := ⟨depth' - 1, by omega⟩
    exact .obj hkeys fun e he => ih e he (by omega)

/-- The text of a value starts with what is neither a blank nor the end of an array. -/
theorem exists_first (h : Writable depth j) (level : Nat) :
    ∃ c cs, (prettyAt level j).toList = c :: cs ∧ isSpace (.char c) = false ∧ c ≠ ']' := by
  cases h with
  | null => exact ⟨'n', ['u', 'l', 'l'], by simp [prettyAt], rfl, by decide⟩
  | bool b =>
    cases b with
    | false => exact ⟨'f', ['a', 'l', 's', 'e'], by simp [prettyAt], rfl, by decide⟩
    | true => exact ⟨'t', ['r', 'u', 'e'], by simp [prettyAt], rfl, by decide⟩
  | @nat _ n h =>
    obtain ⟨d, ds, hds, hne⟩ := exists_first_digit n
    refine ⟨d, ds, ?_, by simp [isSpace, hne], hne ']' rfl⟩
    rw [prettyAt, toString_natCast, String.toList_ofList, hds]
  | str s => exact ⟨'"', _, by simp [prettyAt, textLiteral]; rfl, rfl, by decide⟩
  | @arr _ items h => cases items <;> exact ⟨'[', _, by simp [prettyAt]; rfl, rfl, by decide⟩
  | @obj _ entries hkeys h =>
    cases entries <;> exact ⟨'{', _, by simp [prettyAt]; rfl, rfl, by decide⟩

/-- **A value comes back from its text.** -/
theorem readsAs (h : Writable depth j) (level : Nat) :
    ReadsAs depth (prettyAt level j) (j.mapText .ofString) := by
  induction h generalizing level with
  | @null depth => exact readsAs_word (by simp [words, prettyAt, JsonOf.mapText]) depth
  | @bool depth b =>
    cases b with
    | false => exact readsAs_word (by simp [words, prettyAt, JsonOf.mapText]) depth
    | true => exact readsAs_word (by simp [words, prettyAt, JsonOf.mapText]) depth
  | @nat depth n h => exact readsAs_nat h depth
  | @str depth s => exact readsAs_str s depth
  | @arr depth items h ih =>
    cases items with
    | nil =>
      intro fuel rest _ _
      simp [prettyAt, WideText.ofString, WideText.ofChars, readValue, skipSpace, isSpace,
        JsonOf.mapText, JsonOf.mapItems]
    | cons item items =>
      exact readsAs_arr ((h item (by simp)).exists_first _) fun j hj => ih j hj (level + 1)
  | @obj depth entries hkeys h ih =>
    cases entries with
    | nil =>
      intro fuel rest _ _
      simp [prettyAt, WideText.ofString, WideText.ofChars, readValue, skipSpace, isSpace,
        JsonOf.mapText, JsonOf.mapEntries]
    | cons entry entries => exact readsAs_obj hkeys fun e he => ih e he (level + 1)

end Writable

/-- **The text of a value, with blanks behind it, is read as the value.** -/
theorem readWide_pretty {j : Json} (h : Writable JsonDialect.body.maxDepth j) {rest : WideText}
    (hnumber : numeralChars rest = []) (hblank : skipSpace rest = []) :
    readWide .body (.ofString (pretty j) ++ rest) = .ok (j.mapText .ofString) := by
  have hlength : (pretty j).length ≤ (WideText.ofString (pretty j) ++ rest).length + 1 + 1 := by
    rw [List.length_append, WideText.ofString, WideText.ofChars, List.length_map,
      String.length_toList]
    omega
  have hread := h.readsAs 0 _ rest hlength hnumber
  rw [readWide, pretty]
  rw [pretty] at hread
  rw [hread]
  exact if_pos hblank

/-! ## Printed texts -/

mutual

theorem any_mapText {p : WideJson → Bool} (hp : ∀ j : Json, p (j.mapText .ofString) = false) :
    ∀ j : Json, (j.mapText WideText.ofString).any p = false
  | .null => hp .null
  | .bool b => hp (.bool b)
  | .int n => hp (.int n)
  | .real x => hp (.real x)
  | .str s => hp (.str s)
  | .arr items => by
    have h := hp (.arr items)
    rw [JsonOf.mapText] at h ⊢
    rw [JsonOf.any, h, anyItem_mapItems hp items]
    rfl
  | .obj entries => by
    have h := hp (.obj entries)
    rw [JsonOf.mapText] at h ⊢
    rw [JsonOf.any, h, anyEntry_mapEntries hp entries]
    rfl

theorem anyItem_mapItems {p : WideJson → Bool}
    (hp : ∀ j : Json, p (j.mapText .ofString) = false) :
    ∀ items : List Json, JsonOf.anyItem p (JsonOf.mapItems WideText.ofString items) = false
  | [] => rfl
  | j :: items => by
    rw [JsonOf.mapItems, JsonOf.anyItem, any_mapText hp j, anyItem_mapItems hp items]
    rfl

theorem anyEntry_mapEntries {p : WideJson → Bool}
    (hp : ∀ j : Json, p (j.mapText .ofString) = false) :
    ∀ entries : List (String × Json),
      JsonOf.anyEntry p (JsonOf.mapEntries WideText.ofString entries) = false
  | [] => rfl
  | (key, j) :: entries => by
    rw [JsonOf.mapEntries, JsonOf.anyEntry, any_mapText hp j, anyEntry_mapEntries hp entries]
    rfl

end

mutual

theorem fill_mapText : ∀ j : Json, (j.mapText WideText.ofString).mapText WideText.fill = j
  | .null => rfl
  | .bool _ => rfl
  | .int _ => rfl
  | .real _ => rfl
  | .str s => by rw [JsonOf.mapText, JsonOf.mapText, WideText.fill_ofString]
  | .arr items => by rw [JsonOf.mapText, JsonOf.mapText, fill_mapItems items]
  | .obj entries => by rw [JsonOf.mapText, JsonOf.mapText, fill_mapEntries entries]

theorem fill_mapItems : ∀ items : List Json,
    JsonOf.mapItems WideText.fill (JsonOf.mapItems WideText.ofString items) = items
  | [] => rfl
  | j :: items => by
    rw [JsonOf.mapItems, JsonOf.mapItems, fill_mapText j, fill_mapItems items]

theorem fill_mapEntries : ∀ entries : List (String × Json),
    JsonOf.mapEntries WideText.fill (JsonOf.mapEntries WideText.ofString entries) = entries
  | [] => rfl
  | (key, j) :: entries => by
    rw [JsonOf.mapEntries, JsonOf.mapEntries, WideText.fill_ofString, fill_mapText j,
      fill_mapEntries entries]

end

theorem plain?_mapText (j : Json) : WideJson.plain? (j.mapText .ofString) = some j := by
  have htext : (j.mapText WideText.ofString).anyText WideText.hasHalf = false := by
    refine any_mapText (fun j => ?_) j
    cases j with
    | str s => exact WideText.hasHalf_ofString s
    | obj entries =>
      simp [JsonOf.mapText, JsonOf.mapEntries_eq_map, WideText.hasHalf_ofString]
    | _ => rfl
  rw [WideJson.plain?, htext, if_neg Bool.false_ne_true, WideJson.fill, fill_mapText]

/-- **The value that a printed text stands for**, if it is one. -/
def decoded? (text : String) : Option Json :=
  match readWide .body (.ofString text) with
  | .ok j => WideJson.plain? j
  | .error _ => none

/-- **A value comes back from the lines that it is printed on.** -/
theorem decoded?_pretty {j : Json} (h : Writable JsonDialect.body.maxDepth j) :
    decoded? (pretty j ++ "\n") = some j := by
  have hread : readWide .body (.ofString (pretty j ++ "\n")) = .ok (j.mapText .ofString) := by
    rw [WideText.ofString_append]
    exact readWide_pretty h rfl rfl
  rw [decoded?, hread]
  exact plain?_mapText j

end Json

end DiskLens
