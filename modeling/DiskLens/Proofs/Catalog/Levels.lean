import DiskLens.Proofs.Catalog.Layouts

/-!
# Levels of a catalog file

The reader of catalog files bounds how deep values may be nested, so limits with room for that many
levels never stop a load.

* `Json.levels_read`, `Json.levels_readBytes`: the levels of what is read.
* `parseCatalog_ne_tooDeep`: a value with no more levels than can be shown.
* **`loadParameters_ample`**: with ample limits no value stops a load.
-/

namespace DiskLens

namespace Json

/-! ## Levels of what is read -/

theorem levelsOfItems_le_iff {items : List Json} {n : Nat} :
    levelsOfItems items ≤ n ↔ ∀ j ∈ items, levels j ≤ n := by
  induction items with
  | nil => simp [levelsOfItems]
  | cons item items ih => rw [levelsOfItems, Nat.max_le, ih, List.forall_mem_cons]

theorem levelsOfEntries_le_iff {entries : List (String × Json)} {n : Nat} :
    levelsOfEntries entries ≤ n ↔ ∀ entry ∈ entries, levels entry.2 ≤ n := by
  induction entries with
  | nil => simp [levelsOfEntries]
  | cons entry entries ih => rw [levelsOfEntries, Nat.max_le, ih, List.forall_mem_cons]

section Reading

variable {dialect : JsonDialect} {depth : Nat}

theorem levels_fill_arr {items : List WideJson}
    (h : ∀ item ∈ items, levels (WideJson.fill item) ≤ depth) :
    levels (WideJson.fill (.arr items)) ≤ depth + 1 := by
  rw [WideJson.fill, JsonOf.mapText, JsonOf.mapItems_eq_map, levels, Nat.add_le_add_iff_right,
    levelsOfItems_le_iff, List.forall_mem_map]
  exact h

theorem levels_fill_obj {entries : List (WideText × WideJson)}
    (h : ∀ entry ∈ entries, levels (WideJson.fill entry.2) ≤ depth) :
    levels (WideJson.fill (.obj entries)) ≤ depth + 1 := by
  rw [WideJson.fill, JsonOf.mapText, JsonOf.mapEntries_eq_map, levels, Nat.add_le_add_iff_right,
    levelsOfEntries_le_iff, List.forall_mem_map]
  exact h

theorem levels_value {n : Numeral} {j : WideJson} (h : n.value dialect = .ok j) :
    levels j.fill = 1 := by
  simp only [Numeral.value] at h
  split_ifs at h <;> cases h <;> rfl

/-- A word or a number has one level. -/
theorem levels_readAtom {s rest : WideText} {j : WideJson}
    (h : readAtom dialect s = .ok (j, rest)) : levels j.fill = 1 := by
  unfold readAtom at h
  split at h
  next found hfound =>
    cases h
    obtain ⟨⟨word, j⟩, hmem, hj⟩ := List.exists_of_findSome?_eq_some hfound
    obtain ⟨rest, -, hrest⟩ := Option.map_eq_some_iff.mp hj
    cases hrest
    have hwords : ∀ lenient, ∀ entry ∈ words lenient, levels (WideJson.fill entry.2) = 1 := by
      decide
    exact hwords _ _ hmem
  next =>
    dsimp only at h
    split at h
    next => cases h
    next n rest' hn =>
      cases hvalue : (n.value dialect : Except JsonError WideJson) with
      | error e =>
        rw [hvalue] at h
        cases h
      | ok value =>
        rw [hvalue] at h
        cases h
        exact levels_value hvalue

theorem mem_setEntry {key : WideText} {value : WideJson} {entries : List (WideText × WideJson)}
    {entry : WideText × WideJson} (h : entry ∈ setEntry key value entries) :
    entry.2 = value ∨ entry ∈ entries := by
  induction entries with
  | nil =>
    cases List.mem_singleton.mp h
    exact .inl rfl
  | cons first entries ih =>
    rw [setEntry] at h
    split at h
    next =>
      rcases List.mem_cons.mp h with rfl | h
      · exact .inl rfl
      · exact .inr (List.mem_cons_of_mem _ h)
    next =>
      rcases List.mem_cons.mp h with rfl | h
      · exact .inr List.mem_cons_self
      · exact (ih h).imp_right (List.mem_cons_of_mem _)

/-- **What is read has no more levels than may be opened**, and one for what is inside. -/
theorem levels_read (dialect : JsonDialect) (fuel : Nat) :
    (∀ {depth s j rest}, readValue dialect depth fuel s = .ok (j, rest) →
      levels j.fill ≤ depth + 1) ∧
    (∀ {depth done s j rest}, (∀ item ∈ done, levels (WideJson.fill item) ≤ depth + 1) →
      readItems dialect depth done fuel s = .ok (j, rest) → levels j.fill ≤ depth + 2) ∧
    ∀ {depth done s j rest}, (∀ entry ∈ done, levels (WideJson.fill entry.2) ≤ depth + 1) →
      readEntries dialect depth done fuel s = .ok (j, rest) → levels j.fill ≤ depth + 2 := by
  induction fuel with
  | zero =>
    refine ⟨fun h => ?_, fun _ h => ?_, fun _ h => ?_⟩ <;> cases h
  | succ fuel ih =>
    obtain ⟨ihvalue, ihitems, ihentries⟩ := ih
    refine ⟨fun {depth s j rest} h => ?_, fun {depth done s j rest} hdone h => ?_,
      fun {depth done s j rest} hdone h => ?_⟩
    · unfold readValue at h
      split at h
      next =>
        split at h
        next => cases h; exact Nat.le_add_left 1 depth
        next => cases h
      next =>
        split at h
        next => cases h
        next hdepth =>
          obtain ⟨depth, rfl⟩ := Nat.exists_eq_succ_of_ne_zero hdepth
          split at h
          next => cases h; exact levels_fill_arr (by simp)
          next => exact ihitems (by simp) h
      next =>
        split at h
        next => cases h
        next hdepth =>
          obtain ⟨depth, rfl⟩ := Nat.exists_eq_succ_of_ne_zero hdepth
          split at h
          next => cases h; exact levels_fill_obj (by simp)
          next => exact ihentries (by simp) h
      next => exact (levels_readAtom h).trans_le (Nat.le_add_left 1 depth)
    · unfold readItems at h
      split at h
      next => cases h
      next item rest' hitem =>
        have hall : ∀ i ∈ item :: done, levels (WideJson.fill i) ≤ depth + 1 :=
          List.forall_mem_cons.mpr ⟨ihvalue hitem, hdone⟩
        split at h
        next => exact ihitems hall h
        next =>
          cases h
          exact levels_fill_arr fun i hi => hall i (List.mem_reverse.mp hi)
        next => cases h
    · unfold readEntries at h
      split at h
      next =>
        split at h
        next => cases h
        next key rest' _ =>
          split at h
          next =>
            split at h
            next => cases h
            next value rest'' hvalue =>
              have hall : ∀ e ∈ setEntry key value done,
                  levels (WideJson.fill e.2) ≤ depth + 1 := by
                intro e he
                obtain heq | hmem := mem_setEntry he
                · exact heq ▸ ihvalue hvalue
                · exact hdone e hmem
              dsimp only at h
              split at h
              next => exact ihentries hall h
              next =>
                cases h
                exact levels_fill_obj hall
              next => cases h
          next => cases h
      next => cases h

end Reading

theorem levels_readWide {dialect : JsonDialect} {s : WideText} {j : WideJson}
    (h : readWide dialect s = .ok j) : levels j.fill ≤ dialect.maxDepth + 1 := by
  unfold readWide at h
  cases hvalue : readValue dialect dialect.maxDepth (s.length + 2) s with
  | error e =>
    rw [hvalue] at h
    cases h
  | ok found =>
    obtain ⟨value, rest⟩ := found
    simp only [hvalue, bind, Except.bind] at h
    split at h
    next =>
      cases h
      exact (levels_read dialect _).1 hvalue
    next => cases h

/-- A catalog file has at most 1024 levels of arrays and objects, and one of what is inside them. -/
theorem levels_readBytes {bytes : Bytes} {j : Json} (h : readBytes .catalog bytes = .ok j) :
    levels j ≤ 1025 := by
  unfold readBytes at h
  split at h
  next => cases h
  next s _ =>
    cases hwide : readWide .catalog (.ofChars s) with
    | error e =>
      rw [hwide] at h
      cases h
    | ok wide =>
      simp only [hwide, bind, Except.bind] at h
      split at h
      next hplain =>
        cases h
        rw [WideJson.plain?, Option.ite_none_left_eq_some, Option.some.injEq] at hplain
        exact hplain.2 ▸ levels_readWide hwide
      next => cases h

/-! ## Levels of fields -/

theorem levels_item {items : List Json} {item : Json} (h : item ∈ items) :
    levels item ≤ levels (.arr items) :=
  Nat.le_succ_of_le (levelsOfItems_le_iff.mp le_rfl item h)

theorem levels_entry {entries : List (String × Json)} {entry : String × Json}
    (h : entry ∈ entries) : levels entry.2 ≤ levels (.obj entries) :=
  Nat.le_succ_of_le (levelsOfEntries_le_iff.mp le_rfl entry h)

theorem levels_of_entry? {key : String} {entries : List (String × Json)} {value : Json}
    (h : Json.entry? key entries = some value) : levels value ≤ levels (.obj entries) := by
  obtain ⟨entry, hfind, rfl⟩ := Option.map_eq_some_iff.mp h
  exact levels_entry (List.mem_of_find?_eq_some hfind)

/-- A field has no more levels than its record; a field that is not there counts as null. -/
theorem levels_field (key : String) (fields : List (String × Json)) :
    levels ((Json.entry? key fields).getD .null) ≤ levels (.obj fields) := by
  cases hentry : Json.entry? key fields with
  | none => exact Nat.le_add_left 1 _
  | some value => exact levels_of_entry? hentry

end Json

/-! ## Loads with room -/

/-- The limits have room for values of so many levels. -/
structure ShowLimits.RoomFor (limits : ShowLimits) (n : Nat) : Prop where
  name : n ≤ limits.name
  field : n ≤ limits.field
  page : n ≤ limits.page

theorem ShowLimits.ample_roomFor : ample.RoomFor 1025 := ⟨le_rfl, le_rfl, le_rfl⟩

section Room

variable {limits : ShowLimits} {n : Nat}

theorem fieldsShown_of_levels (hroom : limits.RoomFor n) {fields : List (String × Json)}
    (h : Json.levels (.obj fields) ≤ n) : FieldsShown limits fields := by
  have hfield : ∀ key, Json.levels ((Json.entry? key fields).getD .null) ≤ n := fun key =>
    (Json.levels_field key fields).trans h
  refine ⟨fun key _ => (hfield key).trans hroom.field, ?_, fun items hitems item hitem _ => ?_⟩
  · unfold descriptionField
    split
    next => exact (hfield _).trans hroom.field
    next => exact (hfield _).trans hroom.field
  · have hwiki := hfield "wiki"
    rw [hitems] at hwiki
    exact ((Json.levels_item hitem).trans hwiki).trans hroom.page

theorem parameterOf_ne_tooDeep (hroom : limits.RoomFor n) {j : Json} (h : j.levels ≤ n)
    (name : String) : parameterOf limits name j ≠ .error .tooDeep := by
  cases j with
  | obj fields =>
    have hsome := (parameterOf?_isSome_iff name fields).mpr (fieldsShown_of_levels hroom h)
    obtain ⟨p, hp⟩ := Option.isSome_iff_exists.mp hsome
    simp [parameterOf, hp]
  | null | bool | int | real | str | arr => simp [parameterOf]

theorem recordName_ne_tooDeep (hroom : limits.RoomFor n) {j : Json} (h : j.levels ≤ n) (i : Nat) :
    recordName limits i j ≠ .error .tooDeep := by
  cases hname : j.get? "name" with
  | none => simp [recordName, hname]
  | some name =>
    cases j with
    | obj fields =>
      have hlevels : name.levels ≤ limits.name :=
        ((Json.levels_of_entry? hname).trans h).trans hroom.name
      have hsome := (Json.display?_isSome_iff limits.name_pos name).mpr hlevels
      obtain ⟨text, htext⟩ := Option.isSome_iff_exists.mp hsome
      simp only [recordName, hname, htext]
      split <;> simp
    | null | bool | int | real | str | arr => cases hname

theorem parseRecords_ne_tooDeep (hroom : limits.RoomFor n) {records : List Json}
    (h : ∀ j ∈ records, j.levels ≤ n) (i : Nat) (done : List Parameter) :
    parseRecords limits i done records ≠ .error .tooDeep := by
  induction records generalizing i done with
  | nil => simp [parseRecords]
  | cons j records ih =>
    rw [List.forall_mem_cons] at h
    rw [parseRecords]
    have hname := recordName_ne_tooDeep hroom h.1 i
    split
    next e he => simpa [he] using hname
    next name _ =>
      have hparameter := parameterOf_ne_tooDeep hroom h.1 name
      split
      next e he => simpa [he] using hparameter
      next p _ => exact ih h.2 _ _

theorem parseEntries_ne_tooDeep (hroom : limits.RoomFor n) {entries : List (String × Json)}
    (h : ∀ entry ∈ entries, entry.2.levels ≤ n) (done : List Parameter) :
    parseEntries limits done entries ≠ .error .tooDeep := by
  induction entries generalizing done with
  | nil => simp [parseEntries]
  | cons entry entries ih =>
    rw [List.forall_mem_cons] at h
    rw [parseEntries]
    have hparameter := parameterOf_ne_tooDeep hroom h.1 entry.1
    split
    next e he => simpa [he] using hparameter
    next p _ => exact ih h.2 _

theorem parseCatalog_ne_tooDeep (hroom : limits.RoomFor n) {j : Json} (h : j.levels ≤ n) :
    parseCatalog limits j ≠ .error .tooDeep := by
  cases j with
  | arr records =>
    exact parseRecords_ne_tooDeep hroom (fun j hj => (Json.levels_item hj).trans h) 0 []
  | obj entries =>
    rw [parseCatalog]
    split
    next records hrecords =>
      have hlevels := (Json.levels_of_entry? hrecords).trans h
      exact parseRecords_ne_tooDeep hroom (fun j hj => (Json.levels_item hj).trans hlevels) 0 []
    next =>
      exact parseEntries_ne_tooDeep hroom (fun entry he => (Json.levels_entry he).trans h) []
  | null | bool | int | real | str => simp [parseCatalog]

end Room

/-- **With ample limits no value stops a load**, whatever the files hold. -/
theorem loadParameters_ample (read : Store) (source : CatalogSource) :
    loadParameters ⟨read, .ample⟩ source ≠ .error .tooDeep := by
  cases source with
  | builtIn | blank => simp [loadParameters]
  | file path =>
    simp only [loadParameters]
    split
    next => simp
    next => simp
    next bytes _ =>
      unfold catalogFromBytes
      split
      next => simp
      next j hj =>
        have hparse := parseCatalog_ne_tooDeep ShowLimits.ample_roomFor (Json.levels_readBytes hj)
        cases hp : parseCatalog .ample j with
        | ok ps => simp [Except.mapError]
        | error e =>
          cases e with
          | shape e => simp [Except.mapError, ParseError.failure]
          | tooDeep => exact absurd hp hparse

end DiskLens
