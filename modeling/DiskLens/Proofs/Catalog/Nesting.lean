import DiskLens.Catalog.Load
import DiskLens.Proofs.Json.Printed
import DiskLens.Proofs.Text.Utf8

/-!
# Fields with many levels

The reader of catalog files takes values with up to 1024 levels, and how many of them can be shown
is up to the limits. Where these are lower there are files that are proper JSON, and proper catalogs
but for one field, and still give no parameters.

* `Json.nested`, `brackets`: an array inside an array and so on, and how it is written.
* `Json.readValue_brackets`: such an array is read as long as there are levels and steps left.
* `ShowLimits.narrow`: limits that are lower than what a file may have.
* **`catalogFromBytes_nestedName`**: a record whose name has too many levels stops the load.
-/

namespace DiskLens

namespace Json

/-- An empty array inside `n` others. -/
def nested {τ : Type} : Nat → JsonOf τ
  | 0 => .arr []
  | n + 1 => .arr [nested n]

/-- How a nested array is written. -/
def brackets : Nat → List Char
  | 0 => ['[', ']']
  | n + 1 => '[' :: brackets n ++ [']']

theorem levels_nested (n : Nat) : levels (nested n) = n + 1 := by
  induction n with
  | zero => rfl
  | succ n ih => simp [nested, levels, levelsOfItems, ih]

theorem length_brackets (n : Nat) : (brackets n).length = 2 * n + 2 := by
  induction n with
  | zero => rfl
  | succ n ih => simp [brackets, ih]; omega

theorem anyText_nested {τ : Type} (p : τ → Bool) (n : Nat) :
    (nested n : JsonOf τ).anyText p = false := by
  induction n with
  | zero => rfl
  | succ n ih => simpa [nested, JsonOf.anyText, JsonOf.any, JsonOf.anyItem] using ih

theorem mapText_nested {τ σ : Type} (f : τ → σ) (n : Nat) :
    (nested n).mapText f = nested n := by
  induction n with
  | zero => rfl
  | succ n ih => simp [nested, JsonOf.mapText, JsonOf.mapItems, ih]

section Reading

variable {dialect : JsonDialect} {depth fuel : Nat} {cs rest : WideText}

/-- The last item of an array. -/
theorem readItems_last {item : WideJson} {done : List WideJson}
    (h : readValue dialect depth fuel cs = .ok (item, .char ']' :: rest)) :
    readItems dialect depth done (fuel + 1) cs = .ok (.arr (item :: done).reverse, rest) := by
  simp [readItems, h, skipSpace, isSpace]

/-- The last entry of an object. -/
theorem readEntries_last {key cs' : WideText} {value : WideJson} {done : List (WideText × WideJson)}
    (hkey : readText cs = some (key, .char ':' :: cs'))
    (h : readValue dialect depth fuel cs' = .ok (value, .char '}' :: rest)) :
    readEntries dialect depth done (fuel + 1) (.char '"' :: cs) =
      .ok (.obj (setEntry key value done), rest) := by
  simp [readEntries, hkey, h, skipSpace, isSpace]

end Reading

/-- **A nested array is read** as long as there are levels and steps left. -/
theorem readValue_brackets (dialect : JsonDialect) (n : Nat) {depth fuel : Nat} (hd : n < depth)
    (hf : 2 * n < fuel) (rest : WideText) :
    readValue dialect depth fuel (.ofChars (brackets n) ++ rest) = .ok (nested n, rest) := by
  induction n generalizing depth fuel rest with
  | zero =>
    obtain ⟨fuel, rfl⟩ := Nat.exists_eq_add_of_lt hf
    obtain ⟨depth, rfl⟩ := Nat.exists_eq_add_of_lt hd
    simp [readValue, brackets, WideText.ofChars, skipSpace, isSpace, nested]
  | succ n ih =>
    -- each level takes one step for the array and one for its item
    obtain ⟨fuel, rfl⟩ : ∃ k, fuel = k + 2 := ⟨fuel - 2, by omega⟩
    obtain ⟨depth, rfl⟩ : ∃ k, depth = k + 1 := ⟨depth - 1, by omega⟩
    have hinner : readValue dialect depth fuel (.ofChars (brackets n) ++ .char ']' :: rest) = _ :=
      ih (by omega) (by omega) (.char ']' :: rest)
    obtain ⟨tail, htail⟩ : ∃ tail, brackets n = '[' :: tail := by cases n <;> exact ⟨_, rfl⟩
    have htext : WideText.ofChars (brackets (n + 1)) ++ rest =
        .char '[' :: (WideText.ofChars (brackets n) ++ .char ']' :: rest) := by
      simp [brackets, WideText.ofChars]
    rw [htext, nested]
    rw [htail, WideText.ofChars, List.map_cons, List.cons_append] at hinner ⊢
    rw [readValue_openBracket (skipSpace_cons rfl _) (by decide), readItems_last hinner]
    rfl

/-- A catalog with one record, whose name is a nested array. -/
def nestedName (n : Nat) : List Char :=
  ['[', '{', '"', 'n', 'a', 'm', 'e', '"', ':'] ++ brackets n ++ ['}', ']']

theorem readWide_nestedName {n : Nat} (hn : n < 1022) :
    readWide .catalog (.ofChars (nestedName n)) =
      .ok (.arr [.obj [(.ofChars ['n', 'a', 'm', 'e'], nested n)]]) := by
  have hlen : (nestedName n).length + 2 = 2 * n + 15 := by simp [nestedName, length_brackets]
  let close : WideText := [.char '}', .char ']']
  let entry : WideText :=
    .ofChars ['n', 'a', 'm', 'e', '"', ':'] ++ (.ofChars (brackets n) ++ close)
  have htext : WideText.ofChars (nestedName n) = .char '[' :: .char '{' :: .char '"' :: entry := by
    simp [nestedName, WideText.ofChars, entry, close]
  have hkey : readText entry = some (.ofChars ['n', 'a', 'm', 'e'],
      .char ':' :: (.ofChars (brackets n) ++ close)) := rfl
  have hname : readValue .catalog 1022 (2 * n + 11) (.ofChars (brackets n) ++ close) =
      .ok (nested n, close) := readValue_brackets .catalog n hn (by omega) close
  have hrecord : readValue .catalog 1023 (2 * n + 13) (.char '{' :: .char '"' :: entry) =
      .ok (.obj [(.ofChars ['n', 'a', 'm', 'e'], nested n)], [.char ']']) :=
    (readValue_openBrace (skipSpace_cons rfl _) (by decide)).trans (readEntries_last hkey hname)
  have hall : readValue .catalog 1024 (2 * n + 15) (.ofChars (nestedName n)) =
      .ok (.arr [.obj [(.ofChars ['n', 'a', 'm', 'e'], nested n)]], []) := by
    rw [htext, readValue_openBracket (skipSpace_cons rfl _) (by decide), readItems_last hrecord]
    rfl
  rw [readWide, WideText.ofChars, List.length_map, hlen, ← WideText.ofChars]
  simp only [JsonDialect.catalog] at hall ⊢
  rw [hall]
  rfl

theorem plain?_nestedName (n : Nat) :
    WideJson.plain? (.arr [.obj [(.ofChars ['n', 'a', 'm', 'e'], nested n)]]) =
      some (.arr [.obj [("name", nested n)]]) := by
  have hhalf : JsonOf.anyText WideText.hasHalf
      (.arr [.obj [(.ofChars ['n', 'a', 'm', 'e'], nested n)]]) = false := by
    have hn := anyText_nested WideText.hasHalf n
    rw [JsonOf.anyText] at hn
    simp [JsonOf.anyText, JsonOf.any, JsonOf.anyItem, JsonOf.anyEntry, hn]
    decide
  simp [WideJson.plain?, hhalf, WideJson.fill, JsonOf.mapText, JsonOf.mapItems, JsonOf.mapEntries,
    mapText_nested]
  decide

end Json

/-- Limits that are lower than what a file may have. -/
def ShowLimits.narrow : ShowLimits := ⟨987, 985, 984, by decide, by decide, by decide⟩

section NestedName

variable {limits : ShowLimits} {n : Nat}

theorem parseCatalog_nestedName (hn : limits.name ≤ n) :
    parseCatalog limits (.arr [.obj [("name", Json.nested n)]]) = .error .tooDeep := by
  obtain ⟨m, rfl⟩ : ∃ m, n = m + 1 := ⟨n - 1, by have := limits.name_pos; omega⟩
  have hdisplay : Json.display? limits.name (Json.nested (m + 1)) = none := by
    have hlevels := Json.levels_nested (m + 1)
    rw [Json.nested] at hlevels ⊢
    rw [Json.display?, hlevels, if_neg (by omega)]
    exact fun s h => nomatch h
  have hname : recordName limits 0 (.obj [("name", Json.nested (m + 1))]) = .error .tooDeep := by
    simp [recordName, Json.get?, Json.entry?, hdisplay]
    simp [Json.nested, Json.isTruthy]
  rw [parseCatalog, parseRecords, hname]

/-- **A record whose name has too many levels stops the load**, though the file is proper JSON. -/
theorem catalogFromBytes_nestedName (path : Path) (hn : limits.name ≤ n) (hn' : n < 1022) :
    catalogFromBytes limits path (Utf8.encode (Json.nestedName n)) = .error .tooDeep := by
  have hbytes : Json.readBytes .catalog (Utf8.encode (Json.nestedName n)) =
      .ok (.arr [.obj [("name", Json.nested n)]]) := by
    rw [Json.readBytes, Utf8.decode?_encode]
    simp only [Json.readWide_nestedName hn', bind, Except.bind, Json.plain?_nestedName]
    rfl
  rw [catalogFromBytes, hbytes]
  simp only [parseCatalog_nestedName hn]
  rfl

end NestedName

end DiskLens
