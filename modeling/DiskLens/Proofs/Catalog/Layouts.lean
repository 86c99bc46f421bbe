import DiskLens.Proofs.Catalog.Names
import DiskLens.Proofs.Catalog.Nesting
import Mathlib.Data.List.Forall2

/-!
# Layouts of a catalog

The same parameters may be written as an object from names to records, as an array of records with
their names inside, or as such an array under `parameters`; a record may spell out the key of its
description. All of this is read alike. Only a field that has too many levels to be shown stops the
reading, and it does so in every layout. Other limits make no other difference.

* `FieldsShown`, **`parameterOf?_isSome_iff`**: the records that give a parameter.
* **`parseCatalog_limits`**, `loadParameters_limits`: what is read under two limits is the same.
* `parseRecords_map`: records with their names inside are read as entries under these names.
* `parseEntries_of_forall₂`, `parseEntries_tooDeep`, `parseCatalog_obj`: what the entries of an
  object give.
* `entriesOf`, `recordsOf`: parameters as an object and as an array.
* **`parseCatalog_layouts`**: all layouts of the same parameters give the same.
-/

namespace DiskLens

/-! ## Records that give a parameter -/

namespace Json

theorem display?_isSome_iff {limit : Nat} (hlimit : 0 < limit) (j : Json) :
    (display? limit j).isSome ↔ levels j ≤ limit := by
  cases j with
  | str s => simpa [display?, levels, Nat.one_le_iff_ne_zero, Nat.pos_iff_ne_zero] using hlimit
  | null | bool | int | real | arr | obj => simp [display?]

/-- The text that a value is shown as. -/
def shown : Json → String
  | .str s => s
  | j => j.literal

theorem eq_shown_of_display? {limit : Nat} {j : Json} {s : String}
    (h : display? limit j = some s) : s = j.shown := by
  cases j with
  | str t =>
    rw [display?, Option.some.injEq] at h
    exact h.symm
  | null | bool | int | real | arr | obj =>
    simp only [display?, Option.ite_none_right_eq_some, Option.some.injEq] at h
    exact h.2.symm

/-- A value is shown in one way, whatever the limit. -/
theorem display?_unique {limit limit' : Nat} {j : Json} {s s' : String}
    (h : display? limit j = some s) (h' : display? limit' j = some s') : s = s' :=
  (eq_shown_of_display? h).trans (eq_shown_of_display? h').symm

end Json

section Limits

variable {limits limits' : ShowLimits}

theorem fieldText?_isSome_iff (j : Json) :
    (fieldText? limits j).isSome ↔ j.levels ≤ limits.field := by
  cases j with
  | null | bool =>
    simpa [fieldText?, Json.levels, Nat.one_le_iff_ne_zero, Nat.pos_iff_ne_zero] using
      limits.field_pos
  | int | real | str | arr | obj =>
    rw [← Json.display?_isSome_iff limits.field_pos]
    rfl

theorem mapM_display?_isSome_iff {limit : Nat} (hlimit : 0 < limit) (items : List Json) :
    (items.mapM (Json.display? limit)).isSome ↔ ∀ item ∈ items, item.levels ≤ limit := by
  induction items with
  | nil => simp
  | cons item items ih =>
    rw [List.forall_mem_cons, ← ih, ← Json.display?_isSome_iff hlimit, List.mapM_cons]
    cases item.display? limit with
    | none => simp
    | some text => cases items.mapM (Json.display? limit) <;> simp

theorem fieldWiki?_isSome_iff (j : Json) :
    (fieldWiki? limits j).isSome ↔ ∀ items : List Json, j = .arr items →
      ∀ item : Json, item ∈ items → item.isTruthy → item.levels ≤ limits.page := by
  cases j with
  | arr items =>
    rw [fieldWiki?, mapM_display?_isSome_iff limits.page_pos]
    simp
  | null | bool | int | real | str | obj => simp [fieldWiki?]

theorem fieldText?_unique {j : Json} {s s' : String} (h : fieldText? limits j = some s)
    (h' : fieldText? limits' j = some s') : s = s' := by
  cases j with
  | null | bool => exact Option.some.inj (h.symm.trans h')
  | int | real | str | arr | obj =>
    simp only [fieldText?] at h h'
    exact Json.display?_unique h h'

theorem mapM_display?_unique {limit limit' : Nat} {items : List Json} {texts texts' : List String}
    (h : items.mapM (Json.display? limit) = some texts)
    (h' : items.mapM (Json.display? limit') = some texts') : texts = texts' := by
  induction items generalizing texts texts' with
  | nil => exact Option.some.inj (h.symm.trans h')
  | cons item items ih =>
    simp only [List.mapM_cons, Option.bind_eq_bind, Option.bind_eq_some_iff, Option.pure_def,
      Option.some.injEq] at h h'
    obtain ⟨text, htext, texts, htexts, rfl⟩ := h
    obtain ⟨text', htext', texts', htexts', rfl⟩ := h'
    rw [Json.display?_unique htext htext', ih htexts htexts']

theorem fieldWiki?_unique {j : Json} {pages pages' : List String}
    (h : fieldWiki? limits j = some pages) (h' : fieldWiki? limits' j = some pages') :
    pages = pages' := by
  cases j with
  | arr items => exact mapM_display?_unique h h'
  | null | bool | int | real | str | obj => exact Option.some.inj (h.symm.trans h')

/-- **The fields of a record can be shown**: none of those that are turned into text has too many
levels. -/
structure FieldsShown (limits : ShowLimits) (fields : List (String × Json)) : Prop where
  texts : ∀ key ∈ ["type", "default", "unit"],
    Json.levels ((Json.entry? key fields).getD .null) ≤ limits.field
  description : (descriptionField fields).levels ≤ limits.field
  wiki : ∀ items : List Json, (Json.entry? "wiki" fields).getD .null = .arr items →
    ∀ item : Json, item ∈ items → item.isTruthy → item.levels ≤ limits.page

/-- **A record gives a parameter exactly if its fields can be shown.** -/
theorem parameterOf?_isSome_iff (name : String) (fields : List (String × Json)) :
    (parameterOf? limits name fields).isSome ↔ FieldsShown limits fields := by
  have hshown : FieldsShown limits fields ↔
      (fieldText? limits ((Json.entry? "type" fields).getD .null)).isSome ∧
      (fieldText? limits ((Json.entry? "default" fields).getD .null)).isSome ∧
      (fieldText? limits ((Json.entry? "unit" fields).getD .null)).isSome ∧
      (fieldText? limits (descriptionField fields)).isSome ∧
      (fieldWiki? limits ((Json.entry? "wiki" fields).getD .null)).isSome := by
    simp only [fieldText?_isSome_iff, fieldWiki?_isSome_iff]
    constructor
    · intro h
      exact ⟨h.texts _ (by simp), h.texts _ (by simp), h.texts _ (by simp), h.description, h.wiki⟩
    · rintro ⟨htype, hdefault, hunit, hdescription, hwiki⟩
      exact ⟨by simp [htype, hdefault, hunit], hdescription, hwiki⟩
  rw [hshown, parameterOf?]
  simp [Option.isSome_iff_exists, Option.bind_eq_some_iff]

/-- The parameter of a record depends on its shown fields alone. -/
theorem parameterOf?_congr {fields fields' : List (String × Json)} (name : String)
    (hfields : ∀ key ∈ ["type", "default", "unit", "wiki"],
      Json.entry? key fields' = Json.entry? key fields)
    (hdescription : descriptionField fields' = descriptionField fields) :
    parameterOf? limits name fields' = parameterOf? limits name fields := by
  simp [parameterOf?, hfields, hdescription]

theorem parameterOf_obj_ok_iff {name : String} {fields : List (String × Json)} {p : Parameter} :
    parameterOf limits name (.obj fields) = .ok p ↔ parameterOf? limits name fields = some p := by
  rw [parameterOf]
  cases parameterOf? limits name fields <;> simp

/-- A parameter has the name that it is read under, and the pages of its record. -/
theorem name_and_wiki_of_parameterOf {name : String} {j : Json} {p : Parameter}
    (h : parameterOf limits name j = .ok p) :
    p.name = name ∧ ∃ field, fieldWiki? limits field = some p.wiki := by
  cases j with
  | obj fields =>
    rw [parameterOf_obj_ok_iff] at h
    simp only [parameterOf?, Option.bind_eq_bind, Option.bind_eq_some_iff, Option.pure_def,
      Option.some.injEq] at h
    obtain ⟨_, -, _, -, _, -, _, -, pages, hpages, rfl⟩ := h
    exact ⟨rfl, _, hpages⟩
  | null | bool | int | real | str | arr => cases h

/-! ## Records and entries -/

theorem recordName_of_name {fields : List (String × Json)} {name : String} (hname : name ≠ "")
    (h : Json.entry? "name" fields = some (.str name)) (i : Nat) :
    recordName limits i (.obj fields) = .ok name := by
  simp [recordName, Json.get?, h, Json.isTruthy, hname, Json.display?]

/-- **Records with their names inside are read as entries under these names**, if both give the same
parameters. -/
theorem parseRecords_map {α : Type} {record : α → Json} {entry : α → String × Json} {as : List α}
    (hname : ∀ a ∈ as, ∀ i, recordName limits i (record a) = .ok (entry a).1)
    (hparameter : ∀ a ∈ as,
      parameterOf limits (entry a).1 (record a) = parameterOf limits (entry a).1 (entry a).2)
    (i : Nat) (done : List Parameter) :
    parseRecords limits i done (as.map record) = parseEntries limits done (as.map entry) := by
  induction as generalizing i done with
  | nil => rfl
  | cons a as ih =>
    rw [List.forall_mem_cons] at hname hparameter
    rw [List.map_cons, List.map_cons, parseRecords, parseEntries, hname.1 i]
    simp only [hparameter.1]
    cases parameterOf limits (entry a).1 (entry a).2 with
    | error e => rfl
    | ok p => exact ih hname.2 hparameter.2 (i + 1) (putParameter p done)

/-- **Entries under new names give their parameters in order.** -/
theorem parseEntries_of_forall₂ {entries : List (String × Json)} {done ps : List Parameter}
    (h : List.Forall₂ (fun entry p => parameterOf limits entry.1 entry.2 = .ok p) entries ps)
    (hnames : (done.map Parameter.name ++ entries.map Prod.fst).Nodup) :
    parseEntries limits done entries = .ok (done ++ ps) := by
  induction h generalizing done with
  | nil => simp [parseEntries]
  | @cons entry p entries ps hp _ ih =>
    have hp' : p.name = entry.1 := (name_and_wiki_of_parameterOf hp).1
    have hnew : p.name ∉ done.map Parameter.name := by
      rw [List.nodup_append] at hnames
      exact fun hmem => hnames.2.2 _ hmem entry.1 (by simp) hp'
    rw [parseEntries, hp]
    simp only [putParameter_of_notMem hnew]
    rw [ih (by simpa [hp'] using hnames), List.append_assoc]
    rfl

/-- A field with too many levels stops the reading, if nothing else does. -/
theorem parseEntries_tooDeep {entries : List (String × Json)} {done : List Parameter}
    (hobj : ∀ entry ∈ entries, ∃ fields, entry.2 = .obj fields)
    (h : ∃ entry ∈ entries, parameterOf limits entry.1 entry.2 = .error .tooDeep) :
    parseEntries limits done entries = .error .tooDeep := by
  induction entries generalizing done with
  | nil => simp at h
  | cons entry entries ih =>
    rw [List.forall_mem_cons] at hobj
    obtain ⟨⟨fields, hfields⟩, hobj⟩ := hobj
    rw [parseEntries]
    cases hp : parameterOf limits entry.1 entry.2 with
    | error e =>
      -- of an object, nothing else can go wrong
      rw [hfields, parameterOf] at hp
      split at hp
      next => cases hp
      next =>
        cases hp
        rfl
    | ok p =>
      obtain ⟨deep, hmem, hdeep⟩ := h
      obtain rfl | hmem := List.mem_cons.mp hmem
      · simp [hp] at hdeep
      · exact ih hobj ⟨deep, hmem, hdeep⟩

/-- A record is no array, so that an object of records is not taken for one with an array under
`parameters`, even if one of them has this name. -/
theorem parseCatalog_obj {entries : List (String × Json)}
    (hobj : ∀ entry ∈ entries, ∃ fields, entry.2 = .obj fields) :
    parseCatalog limits (.obj entries) = parseEntries limits [] entries := by
  rw [parseCatalog]
  split
  next records hrecords =>
    simp only [Json.entry?, Option.map_eq_some_iff] at hrecords
    obtain ⟨entry, hfind, hentry⟩ := hrecords
    obtain ⟨fields, hfields⟩ := hobj entry (List.mem_of_find?_eq_some hfind)
    rw [hfields] at hentry
    cases hentry
  next => rfl

/-! ## Other limits -/

theorem parameterOf?_unique {name : String} {fields : List (String × Json)} {p p' : Parameter}
    (h : parameterOf? limits name fields = some p)
    (h' : parameterOf? limits' name fields = some p') : p = p' := by
  simp only [parameterOf?, Option.bind_eq_bind, Option.bind_eq_some_iff, Option.pure_def,
    Option.some.injEq] at h h'
  obtain ⟨_, htype, _, hdefault, _, hunit, _, hdescription, _, hwiki, rfl⟩ := h
  obtain ⟨_, htype', _, hdefault', _, hunit', _, hdescription', _, hwiki', rfl⟩ := h'
  rw [fieldText?_unique htype htype', fieldText?_unique hdefault hdefault',
    fieldText?_unique hunit hunit', fieldText?_unique hdescription hdescription',
    fieldWiki?_unique hwiki hwiki']

theorem parameterOf_limits {name : String} {j : Json}
    (h : parameterOf limits name j ≠ .error .tooDeep)
    (h' : parameterOf limits' name j ≠ .error .tooDeep) :
    parameterOf limits name j = parameterOf limits' name j := by
  cases j with
  | obj fields =>
    rw [parameterOf] at h h' ⊢
    rw [parameterOf]
    cases hp : parameterOf? limits name fields with
    | none => simp [hp] at h
    | some p =>
      cases hp' : parameterOf? limits' name fields with
      | none => simp [hp'] at h'
      | some p' => simp [parameterOf?_unique hp hp']
  | null | bool | int | real | str | arr => rfl

theorem recordName_limits {i : Nat} {j : Json} (h : recordName limits i j ≠ .error .tooDeep)
    (h' : recordName limits' i j ≠ .error .tooDeep) :
    recordName limits i j = recordName limits' i j := by
  unfold recordName at h h' ⊢
  cases hname : j.get? "name" with
  | none => rfl
  | some name =>
    simp only [hname] at h h' ⊢
    cases htruthy : name.isTruthy with
    | false => rfl
    | true =>
      simp only [htruthy] at h h' ⊢
      cases hs : name.display? limits.name with
      | none => simp [hs] at h
      | some s =>
        cases hs' : name.display? limits'.name with
        | none => simp [hs'] at h'
        | some s' => rw [Json.display?_unique hs hs']

theorem parseRecords_limits {i : Nat} {done : List Parameter} {records : List Json}
    (h : parseRecords limits i done records ≠ .error .tooDeep)
    (h' : parseRecords limits' i done records ≠ .error .tooDeep) :
    parseRecords limits i done records = parseRecords limits' i done records := by
  induction records generalizing i done with
  | nil => rfl
  | cons j records ih =>
    rw [parseRecords] at h h' ⊢
    rw [parseRecords]
    have hname : recordName limits i j = recordName limits' i j := by
      apply recordName_limits
      · intro hdeep
        simp [hdeep] at h
      · intro hdeep
        simp [hdeep] at h'
    rw [← hname] at h' ⊢
    cases hj : recordName limits i j with
    | error e => rfl
    | ok name =>
      simp only [hj] at h h' ⊢
      have hparameter : parameterOf limits name j = parameterOf limits' name j := by
        apply parameterOf_limits
        · intro hdeep
          simp [hdeep] at h
        · intro hdeep
          simp [hdeep] at h'
      rw [← hparameter] at h' ⊢
      cases hp : parameterOf limits name j with
      | error e => rfl
      | ok p =>
        simp only [hp] at h h' ⊢
        exact ih h h'

theorem parseEntries_limits {done : List Parameter} {entries : List (String × Json)}
    (h : parseEntries limits done entries ≠ .error .tooDeep)
    (h' : parseEntries limits' done entries ≠ .error .tooDeep) :
    parseEntries limits done entries = parseEntries limits' done entries := by
  induction entries generalizing done with
  | nil => rfl
  | cons entry entries ih =>
    rw [parseEntries] at h h' ⊢
    rw [parseEntries]
    have hparameter : parameterOf limits entry.1 entry.2 = parameterOf limits' entry.1 entry.2 := by
      apply parameterOf_limits
      · intro hdeep
        simp [hdeep] at h
      · intro hdeep
        simp [hdeep] at h'
    rw [← hparameter] at h' ⊢
    cases hp : parameterOf limits entry.1 entry.2 with
    | error e => rfl
    | ok p =>
      simp only [hp] at h h' ⊢
      exact ih h h'

/-- **What is read under two limits is the same**, if neither of them stops the reading. -/
theorem parseCatalog_limits {j : Json} (h : parseCatalog limits j ≠ .error .tooDeep)
    (h' : parseCatalog limits' j ≠ .error .tooDeep) :
    parseCatalog limits j = parseCatalog limits' j := by
  cases j with
  | arr records => exact parseRecords_limits h h'
  | obj entries =>
    rw [parseCatalog] at h h' ⊢
    rw [parseCatalog]
    split at h
    next records hrecords =>
      simp only [hrecords] at h' ⊢
      exact parseRecords_limits h h'
    next hrecords => exact parseEntries_limits h (by simpa [hrecords] using h')
  | null | bool | int | real | str => rfl

theorem loadParameters_limits {read : Store} {source : CatalogSource}
    (h : loadParameters ⟨read, limits⟩ source ≠ .error .tooDeep)
    (h' : loadParameters ⟨read, limits'⟩ source ≠ .error .tooDeep) :
    loadParameters ⟨read, limits⟩ source = loadParameters ⟨read, limits'⟩ source := by
  cases source with
  | builtIn | blank => rfl
  | file path =>
    simp only [loadParameters] at h h' ⊢
    cases hread : read path with
    | error e => cases e <;> rfl
    | ok bytes =>
      simp only [hread, catalogFromBytes] at h h' ⊢
      cases hj : Json.readBytes .catalog bytes with
      | error e => rfl
      | ok j =>
        simp only [hj] at h h' ⊢
        have hsame : parseCatalog limits j = parseCatalog limits' j := by
          apply parseCatalog_limits
          · intro hdeep
            simp [hdeep, Except.mapError, ParseError.failure] at h
          · intro hdeep
            simp [hdeep, Except.mapError, ParseError.failure] at h'
        rw [hsame]

/-! ## Layouts -/

/-- Fields with the description under its spelled-out key, where there is one under the short
key. -/
def spellDescription (fields : List (String × Json)) : List (String × Json) :=
  match (Json.entry? "desc" fields).getD .null with
  | .null => fields
  | description => Json.setEntry "description" description (fields.filter (·.1 ≠ "desc"))

/-- The fields of a record with its name among them, and its description spelled out or not. -/
def namedFields (spell : Bool) (name : String) (fields : List (String × Json)) :
    List (String × Json) :=
  Json.setEntry "name" (.str name) (if spell then spellDescription fields else fields)

/-- **The entries of an object** from names to records. -/
def entriesOf (m : List (String × List (String × Json))) : List (String × Json) :=
  m.map fun entry => (entry.1, .obj entry.2)

/-- **The items of an array** of records with their names. Of each name it is given whether its
record spells out the description. -/
def recordsOf (spell : String → Bool) (m : List (String × List (String × Json))) : List Json :=
  m.map fun entry => .obj (namedFields (spell entry.1) entry.1 entry.2)

theorem entry?_spellDescription {key : String} (hkey : key ∉ ["desc", "description"])
    (fields : List (String × Json)) :
    Json.entry? key (spellDescription fields) = Json.entry? key fields := by
  simp only [List.mem_cons, List.not_mem_nil, or_false, not_or] at hkey
  unfold spellDescription
  split
  next => rfl
  next => rw [Json.entry?_setEntry, if_neg hkey.2, Json.entry?_filter, if_neg hkey.1]

theorem descriptionField_spellDescription (fields : List (String × Json)) :
    descriptionField (spellDescription fields) = descriptionField fields := by
  unfold spellDescription
  split
  next => rfl
  next description hdescription =>
    -- the short key is gone, so that the spelled-out one counts
    have hshort : Json.entry? "desc" (Json.setEntry "description"
        ((Json.entry? "desc" fields).getD .null) (fields.filter (·.1 ≠ "desc"))) = none := by
      rw [Json.entry?_setEntry, if_neg (by decide), Json.entry?_filter, if_pos rfl]
    unfold descriptionField
    rw [hshort, Json.entry?_setEntry, if_pos rfl]
    simp only [Option.getD_none, Option.getD_some]

theorem parameterOf_namedFields (spell : Bool) (name : String) (fields : List (String × Json)) :
    parameterOf limits name (.obj (namedFields spell name fields)) =
      parameterOf limits name (.obj fields) := by
  have hspell : parameterOf? limits name (if spell then spellDescription fields else fields) =
      parameterOf? limits name fields := by
    cases spell with
    | false => rfl
    | true =>
      refine parameterOf?_congr name (fun key hkey => entry?_spellDescription ?_ fields)
        (descriptionField_spellDescription fields)
      revert key
      decide
  have hname : parameterOf? limits name (namedFields spell name fields) =
      parameterOf? limits name fields := by
    rw [← hspell]
    refine parameterOf?_congr name (fun key hkey => ?_) ?_
    · rw [namedFields, Json.entry?_setEntry, if_neg]
      rintro rfl
      exact absurd hkey (by decide)
    · simp [namedFields, descriptionField, Json.entry?_setEntry]
  rw [parameterOf, parameterOf, hname]

/-- An array of records is read as the object from names to records. -/
theorem parseRecords_recordsOf (spell : String → Bool) {m : List (String × List (String × Json))}
    (hnames : ∀ name ∈ m.map Prod.fst, name ≠ "") :
    parseRecords limits 0 [] (recordsOf spell m) = parseEntries limits [] (entriesOf m) := by
  refine parseRecords_map (fun entry hentry i => ?_) (fun _ _ => parameterOf_namedFields ..) 0 []
  exact recordName_of_name (hnames entry.1 (List.mem_map_of_mem hentry))
    (by simp [namedFields, Json.entry?_setEntry]) i

theorem records_entriesOf (m : List (String × List (String × Json))) :
    ∀ entry ∈ entriesOf m, ∃ fields, entry.2 = .obj fields := by
  intro entry hentry
  obtain ⟨a, -, rfl⟩ := List.mem_map.mp hentry
  exact ⟨a.2, rfl⟩

theorem names_entriesOf (m : List (String × List (String × Json))) :
    (entriesOf m).map Prod.fst = m.map Prod.fst := by
  rw [entriesOf, List.map_map]
  rfl

theorem parameterOf_obj_of_not_shown {fields : List (String × Json)}
    (h : ¬ FieldsShown limits fields) (name : String) :
    parameterOf limits name (.obj fields) = .error .tooDeep := by
  rw [← parameterOf?_isSome_iff name, Option.not_isSome_iff_eq_none] at h
  rw [parameterOf, h]

/-- Records whose fields can be shown give one parameter each. -/
theorem exists_parameters_of_shown {m : List (String × List (String × Json))}
    (h : ∀ entry ∈ m, FieldsShown limits entry.2) :
    ∃ ps, List.Forall₂ (fun entry p => parameterOf? limits entry.1 entry.2 = some p) m ps := by
  induction m with
  | nil => exact ⟨[], .nil⟩
  | cons entry m ih =>
    rw [List.forall_mem_cons] at h
    obtain ⟨p, hp⟩ :=
      Option.isSome_iff_exists.mp ((parameterOf?_isSome_iff entry.1 entry.2).mpr h.1)
    obtain ⟨ps, hps⟩ := ih h.2
    exact ⟨p :: ps, .cons hp hps⟩

/-- The names under which parameters stand are their own. -/
theorem names_of_forall₂ {entries : List (String × Json)} {ps : List Parameter}
    (h : List.Forall₂ (fun entry p => parameterOf limits entry.1 entry.2 = .ok p) entries ps) :
    ps.map Parameter.name = entries.map Prod.fst := by
  induction h with
  | nil => rfl
  | cons hp _ ih => rw [List.map_cons, List.map_cons, ih,
      (name_and_wiki_of_parameterOf hp).1]

theorem parseCatalog_entriesOf_tooDeep {m : List (String × List (String × Json))}
    (h : ∃ entry ∈ m, ¬ FieldsShown limits entry.2) :
    parseCatalog limits (.obj (entriesOf m)) = .error .tooDeep := by
  obtain ⟨⟨name, fields⟩, hmem, hdeep⟩ := h
  rw [parseCatalog_obj (records_entriesOf m)]
  refine parseEntries_tooDeep (records_entriesOf m) ⟨(name, .obj fields), ?_, ?_⟩
  · exact List.mem_map_of_mem hmem
  · exact parameterOf_obj_of_not_shown hdeep name

theorem parseCatalog_entriesOf_ok {m : List (String × List (String × Json))}
    (hdistinct : (m.map Prod.fst).Nodup) (h : ∀ entry ∈ m, FieldsShown limits entry.2) :
    ∃ ps, parseCatalog limits (.obj (entriesOf m)) = .ok ps ∧
      ps.map Parameter.name = m.map Prod.fst ∧
      List.Forall₂ (fun entry p => parameterOf? limits entry.1 entry.2 = some p) m ps := by
  -- the names are distinct, so no parameter takes the place of another one
  obtain ⟨ps, hps⟩ := exists_parameters_of_shown h
  have hentries : List.Forall₂ (fun entry p => parameterOf limits entry.1 entry.2 = .ok p)
      (entriesOf m) ps :=
    List.forall₂_map_left_iff.mpr (hps.imp fun _ _ h => parameterOf_obj_ok_iff.mpr h)
  have hnew : (([] : List Parameter).map Parameter.name ++ (entriesOf m).map Prod.fst).Nodup := by
    rw [names_entriesOf]
    exact hdistinct
  rw [parseCatalog_obj (records_entriesOf m)]
  refine ⟨ps, parseEntries_of_forall₂ hentries hnew, ?_, hps⟩
  rw [names_of_forall₂ hentries, names_entriesOf]

end Limits

/-- **All layouts of the same parameters give the same**, whatever the limits under which an object
and an array are read: the parameters under their names and in order if their fields can be shown,
and the same failure otherwise. -/
theorem parseCatalog_layouts (limits limits' : ShowLimits)
    (m : List (String × List (String × Json))) (spell : String → Bool)
    (others : List (String × Json)) (hdistinct : (m.map Prod.fst).Nodup)
    (hnames : ∀ name ∈ m.map Prod.fst, name ≠ "")
    (hothers : Json.entry? "parameters" others = some (.arr (recordsOf spell m))) :
    ((∀ entry ∈ m, FieldsShown limits entry.2) → (∀ entry ∈ m, FieldsShown limits' entry.2) →
      ∃ ps, parseCatalog limits (.obj (entriesOf m)) = .ok ps ∧
        parseCatalog limits' (.arr (recordsOf spell m)) = .ok ps ∧
        parseCatalog limits' (.obj others) = .ok ps ∧ ps.map Parameter.name = m.map Prod.fst ∧
        List.Forall₂ (fun entry p => parameterOf? limits entry.1 entry.2 = some p) m ps) ∧
    ((∃ entry ∈ m, ¬ FieldsShown limits entry.2) →
      parseCatalog limits (.obj (entriesOf m)) = .error .tooDeep) ∧
    ((∃ entry ∈ m, ¬ FieldsShown limits' entry.2) →
      parseCatalog limits' (.arr (recordsOf spell m)) = .error .tooDeep ∧
        parseCatalog limits' (.obj others) = .error .tooDeep) := by
  have harray : parseCatalog limits' (.arr (recordsOf spell m)) =
      parseCatalog limits' (.obj (entriesOf m)) := by
    rw [parseCatalog_obj (records_entriesOf m), parseCatalog, parseRecords_recordsOf spell hnames]
  have hobject : parseCatalog limits' (.obj others) =
      parseCatalog limits' (.arr (recordsOf spell m)) := by
    simp only [parseCatalog, hothers]
  rw [hobject, harray]
  refine ⟨fun hshown hshown' => ?_, parseCatalog_entriesOf_tooDeep, fun hdeep => ?_⟩
  · obtain ⟨ps, hok, hps⟩ := parseCatalog_entriesOf_ok hdistinct hshown
    obtain ⟨ps', hok', -⟩ := parseCatalog_entriesOf_ok hdistinct hshown'
    have hsame : parseCatalog limits (.obj (entriesOf m)) =
        parseCatalog limits' (.obj (entriesOf m)) := by
      apply parseCatalog_limits <;> simp [hok, hok']
    exact ⟨ps, hok, hsame ▸ hok, hsame ▸ hok, hps⟩
  · exact ⟨parseCatalog_entriesOf_tooDeep hdeep, parseCatalog_entriesOf_tooDeep hdeep⟩

/-- Parameters called like the keys that mark the older layouts. One has a field that is shown as a
literal, the other a description to be spelled out. -/
theorem parseCatalog_layouts_of_marker_names :
    let m : List (String × List (String × Json)) :=
      [("parameters", [("default", .arr [.int 1]), ("wiki", .str "page")]),
        ("name", [("desc", .str "d"), ("name", .null)])]
    let ps : List Parameter :=
      [⟨"parameters", "", "[1]", "", "", ["page"]⟩, ⟨"name", "", "", "", "d", []⟩]
    let records := recordsOf (· = "name") m
    (∀ entry ∈ m, FieldsShown .narrow entry.2) ∧ (∀ entry ∈ m, FieldsShown .ample entry.2) ∧
      parseCatalog .narrow (.obj (entriesOf m)) = .ok ps ∧
      parseCatalog .ample (.arr records) = .ok ps ∧
      parseCatalog .ample (.obj [("version", .int 2), ("parameters", .arr records)]) = .ok ps := by
  intro m ps records
  have hshown : ∀ limits ∈ [ShowLimits.narrow, .ample],
      ∀ entry ∈ m, FieldsShown limits entry.2 := by
    intro limits hlimits entry hentry
    rw [← parameterOf?_isSome_iff entry.1]
    revert limits entry
    decide +kernel
  have hnarrow := hshown .narrow (by simp)
  have hample := hshown .ample (by simp)
  obtain ⟨hok, -, -⟩ := parseCatalog_layouts .narrow .ample m (· = "name")
    [("version", .int 2), ("parameters", .arr records)] (by decide) (by decide)
    (by simp [Json.entry?, records])
  obtain ⟨qs, hobject, hrecords, hothers, -, hall⟩ := hok hnarrow hample
  have hps : List.Forall₂ (fun entry p => parameterOf? .narrow entry.1 entry.2 = some p) m ps :=
    .cons (by decide +kernel) (.cons (by decide +kernel) .nil)
  obtain rfl : qs = ps :=
    List.right_unique_forall₂' (fun _ _ _ h h' => Option.some.inj (h.symm.trans h')) hall hps
  exact ⟨hnarrow, hample, hobject, hrecords, hothers⟩

/-- **A catalog that is given in a proper layout and gives no parameters**: one field has too many
levels. -/
theorem parseCatalog_deep_field :
    parseCatalog .narrow (.obj (entriesOf [("a", [("type", Json.nested 1014)])])) =
      .error .tooDeep := by
  apply parseCatalog_entriesOf_tooDeep
  refine ⟨("a", [("type", Json.nested 1014)]), by simp, ?_⟩
  intro h
  have htype := h.texts "type" (by simp)
  simp [Json.entry?, Json.levels_nested, ShowLimits.narrow] at htype

end DiskLens
