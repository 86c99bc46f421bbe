import DiskLens.Proofs.Catalog.Layouts

/-!
# Arrays of records

An array of records is read one after the other, and a record takes the place of an earlier one with
its name. What is read after some records can be told from them: the names in the order in which
they came first, each with the last record that has it. The first record at fault ends the reading.

* `Json.Unnamed`: the elements without a name; **`Json.Readable`**: the records that can be read;
  `recordKey`: the name of a record.
* `readRecord`: one record; `readRecord_of_unnamed`, `readRecord_of_deep`, `readRecord_of_readable`.
* **`TakenFrom`**: the parameters of some records; `TakenFrom.snoc`: one more record.
* `parseRecords_run`, `parseRecords_fault`: all records of an array.
* **`parseCatalog_array`**: what an array of records gives.
-/

namespace DiskLens

/-! ## Names -/

namespace Json

/-- The values that count as not given. -/
inductive NotGiven : Json → Prop
  | null : NotGiven .null
  | no : NotGiven (.bool false)
  | zero : NotGiven (.int 0)
  | realZero (negative : Bool) (e : Int) : NotGiven (.real (.finite negative 0 e))
  | text : NotGiven (.str "")
  | array : NotGiven (.arr [])
  | object : NotGiven (.obj [])

/-- **An element without a name**: it is no object, or its name is missing or not given. -/
inductive Unnamed : Json → Prop
  | noObject {j : Json} (h : ∀ fields, j ≠ .obj fields) : Unnamed j
  | missing {fields : List (String × Json)} (h : entry? "name" fields = none) :
      Unnamed (.obj fields)
  | notGiven {fields : List (String × Json)} {name : Json} (h : entry? "name" fields = some name)
      (hname : NotGiven name) : Unnamed (.obj fields)

theorem isTruthy_eq_false_iff (j : Json) : j.isTruthy = false ↔ NotGiven j := by
  constructor
  · intro h
    cases j with
    | null => exact .null
    | bool b =>
      cases b with
      | false => exact .no
      | true => cases h
    | int n =>
      obtain rfl : n = 0 := by simpa [isTruthy] using h
      exact .zero
    | real x =>
      cases x with
      | finite negative m e =>
        obtain rfl : m = 0 := by simpa [isTruthy, Binary64.isZero] using h
        exact .realZero negative e
      | infinite | nan => cases h
    | str s =>
      obtain rfl : s = "" := by simpa [isTruthy] using h
      exact .text
    | arr items =>
      cases items with
      | nil => exact .array
      | cons => cases h
    | obj entries =>
      cases entries with
      | nil => exact .object
      | cons => cases h
  · intro h
    cases h <;> rfl

end Json

/-! ## One record -/

/-- **A record that can be read**: it has a name, and neither the name nor a field has too many
levels. -/
structure Json.Readable (limits : ShowLimits) (j : Json) : Prop where
  named : ¬ j.Unnamed
  name_shown : (j.getD "name").levels ≤ limits.name
  fields_shown : ∀ fields, j = .obj fields → FieldsShown limits fields

/-- The text of the name in a record. -/
def recordKey (j : Json) : String := (j.getD "name").shown

/-- The parameter of the record at index `i`. -/
def readRecord (limits : ShowLimits) (i : Nat) (j : Json) : Except ParseError Parameter := do
  parameterOf limits (← recordName limits i j) j

section Limits

variable {limits : ShowLimits}

theorem parseRecords_cons (i : Nat) (done : List Parameter) (j : Json) (js : List Json) :
    parseRecords limits i done (j :: js) = match readRecord limits i j with
      | .error e => .error e
      | .ok p => parseRecords limits (i + 1) (putParameter p done) js := by
  rw [parseRecords, readRecord]
  cases recordName limits i j with
  | error e => rfl
  | ok name => rfl

theorem readRecord_of_unnamed {j : Json} (h : j.Unnamed) (i : Nat) :
    readRecord limits i j = .error (.shape (.noName i)) := by
  have hname : recordName limits i j = .error (.shape (.noName i)) := by
    cases h with
    | noObject h =>
      cases j with
      | obj fields => exact absurd rfl (h fields)
      | null | bool | int | real | str | arr => rfl
    | missing h => simp [recordName, Json.get?, h]
    | notGiven h hname => simp [recordName, Json.get?, h, (Json.isTruthy_eq_false_iff _).mpr hname]
  rw [readRecord, hname]
  rfl

/-- A record with a name is an object, and its name is read before its fields. -/
theorem readRecord_of_named {j : Json} (h : ¬ j.Unnamed) :
    ∃ fields, j = .obj fields ∧ ∀ i, readRecord limits i j =
      match (j.getD "name").display? limits.name with
      | some name => parameterOf limits name (.obj fields)
      | none => .error .tooDeep := by
  cases j with
  | obj fields =>
    refine ⟨fields, rfl, fun i => ?_⟩
    cases hname : Json.entry? "name" fields with
    | none => exact absurd (.missing hname) h
    | some name =>
      have htruthy : Json.isTruthy name := by
        by_contra hfalse
        rw [Bool.not_eq_true, Json.isTruthy_eq_false_iff] at hfalse
        exact h (.notGiven hname hfalse)
      rw [readRecord, recordName, Json.getD, Json.get?, hname, Option.getD_some]
      simp only [htruthy, Bool.not_true, Bool.false_eq_true, if_false]
      cases Json.display? limits.name name <;> rfl
  | null | bool | int | real | str | arr => exact absurd (.noObject (by simp)) h

theorem readRecord_of_deep {j : Json} (h : ¬ j.Unnamed) (hdeep : ¬ j.Readable limits) (i : Nat) :
    readRecord limits i j = .error .tooDeep := by
  obtain ⟨fields, rfl, hread⟩ := readRecord_of_named h
  rw [hread]
  cases hname : (Json.getD "name" (.obj fields)).display? limits.name with
  | none => rfl
  | some name =>
    apply parameterOf_obj_of_not_shown
    intro hfields
    apply hdeep
    refine ⟨h, ?_, fun fields' heq => ?_⟩
    · rw [← Json.display?_isSome_iff limits.name_pos, hname]
      rfl
    · cases heq
      exact hfields

theorem readRecord_of_readable {j : Json} (h : j.Readable limits) :
    ∃ p, p.name = recordKey j ∧ parameterOf limits p.name j = .ok p ∧
      ∀ i, readRecord limits i j = .ok p := by
  obtain ⟨fields, rfl, hread⟩ := readRecord_of_named h.named
  obtain ⟨name, hname⟩ :=
    Option.isSome_iff_exists.mp ((Json.display?_isSome_iff limits.name_pos _).mpr h.name_shown)
  obtain ⟨p, hp⟩ :=
    Option.isSome_iff_exists.mp ((parameterOf?_isSome_iff name fields).mpr (h.fields_shown _ rfl))
  have hok : parameterOf limits name (.obj fields) = .ok p := parameterOf_obj_ok_iff.mpr hp
  have hpname : p.name = name := (name_and_wiki_of_parameterOf hok).1
  refine ⟨p, ?_, ?_, fun i => ?_⟩
  · rw [hpname, recordKey, Json.eq_shown_of_display? hname]
  · rw [hpname, hok]
  · rw [hread, hname]
    exact hok

theorem readable_of_readRecord {i : Nat} {j : Json} {p : Parameter}
    (h : readRecord limits i j = .ok p) : j.Readable limits := by
  by_contra hj
  by_cases hnamed : j.Unnamed
  · rw [readRecord_of_unnamed hnamed] at h
    cases h
  · rw [readRecord_of_deep hnamed hj] at h
    cases h

/-! ## One record more -/

theorem eraseDups_snoc (names : List String) (name : String) :
    (names ++ [name]).eraseDups =
      if name ∈ names then names.eraseDups else names.eraseDups ++ [name] := by
  rw [List.eraseDups_append]
  by_cases h : name ∈ names <;> simp [List.removeAll, h, List.eraseDups_cons]

theorem mem_putParameter_of_nodup {p q : Parameter} {ps : List Parameter}
    (hnames : (ps.map Parameter.name).Nodup) (h : q ∈ putParameter p ps) :
    q = p ∨ q ∈ ps ∧ q.name ≠ p.name := by
  induction ps with
  | nil => exact .inl (List.mem_singleton.mp h)
  | cons r ps ih =>
    rw [List.map_cons, List.nodup_cons] at hnames
    rw [putParameter] at h
    by_cases hr : r.name = p.name
    · rw [if_pos hr, List.mem_cons] at h
      refine h.imp_right fun hq => ⟨List.mem_cons_of_mem r hq, fun hname => hnames.1 ?_⟩
      rw [hr, ← hname]
      exact List.mem_map_of_mem hq
    · rw [if_neg hr, List.mem_cons] at h
      rcases h with rfl | h
      · exact .inr ⟨List.mem_cons_self, hr⟩
      · exact (ih hnames.2 h).imp_right fun hq => ⟨List.mem_cons_of_mem r hq.1, hq.2⟩

/-- The parameter is that of the last record with its name, and of no other one. -/
def FromLast (limits : ShowLimits) (records : List Json) (p : Parameter) : Prop :=
  ∃ before j after, records = before ++ j :: after ∧ recordKey j = p.name ∧
    (∀ r ∈ after, recordKey r ≠ p.name) ∧ parameterOf limits p.name j = .ok p

/-- **The parameters of some records**: the names in the order in which they came first, and each
parameter from the last record with its name. -/
structure TakenFrom (limits : ShowLimits) (records : List Json) (ps : List Parameter) : Prop where
  distinct : (ps.map Parameter.name).Nodup
  names : ps.map Parameter.name = (records.map recordKey).eraseDups
  last : ∀ p ∈ ps, FromLast limits records p

theorem TakenFrom.snoc {records : List Json} {ps : List Parameter} (h : TakenFrom limits records ps)
    {j : Json} {p : Parameter} (hname : p.name = recordKey j)
    (hp : parameterOf limits p.name j = .ok p) :
    TakenFrom limits (records ++ [j]) (putParameter p ps) := by
  refine ⟨names_putParameter_nodup h.distinct p, ?_, fun q hq => ?_⟩
  · rw [names_putParameter, h.names, List.map_append, List.map_singleton, eraseDups_snoc, hname]
    simp only [List.mem_eraseDups]
  · rcases mem_putParameter_of_nodup h.distinct hq with rfl | ⟨hold, hne⟩
    · exact ⟨records, j, [], rfl, hname.symm, by simp, hp⟩
    · obtain ⟨before, j', after, rfl, hkey, hafter, hread⟩ := h.last q hold
      refine ⟨before, j', after ++ [j], by simp, hkey, fun r hr => ?_, hread⟩
      rcases List.mem_append.mp hr with hr | hr
      · exact hafter r hr
      · rw [List.mem_singleton.mp hr, ← hname]
        exact hne.symm

/-! ## All records -/

/-- Records that can be read are all read. -/
theorem parseRecords_run {records rest : List Json} {done : List Parameter}
    (hdone : TakenFrom limits records done) (hrest : ∀ j ∈ rest, j.Readable limits) (i : Nat) :
    ∃ ps, parseRecords limits i done rest = .ok ps ∧ TakenFrom limits (records ++ rest) ps := by
  induction rest generalizing records done i with
  | nil =>
    rw [List.append_nil]
    exact ⟨done, rfl, hdone⟩
  | cons j rest ih =>
    rw [List.forall_mem_cons] at hrest
    obtain ⟨p, hname, hp, hread⟩ := readRecord_of_readable hrest.1
    rw [parseRecords_cons, hread, List.append_cons]
    exact ih (hdone.snoc hname hp) hrest.2 (i + 1)

/-- The first record at fault decides. -/
theorem parseRecords_fault {good : List Json} (hgood : ∀ j ∈ good, j.Readable limits) {i : Nat}
    {j : Json} {e : ParseError} (hj : readRecord limits (i + good.length) j = .error e)
    (done : List Parameter) (after : List Json) :
    parseRecords limits i done (good ++ j :: after) = .error e := by
  induction good generalizing i done with
  | nil =>
    rw [List.nil_append, parseRecords_cons]
    rw [List.length_nil, Nat.add_zero] at hj
    rw [hj]
  | cons r good ih =>
    rw [List.forall_mem_cons] at hgood
    obtain ⟨p, -, -, hread⟩ := readRecord_of_readable hgood.1
    rw [List.cons_append, parseRecords_cons, hread]
    apply ih hgood.2
    rw [← hj, List.length_cons, Nat.add_right_comm, Nat.add_assoc]

/-- The record behind `before` is the first one that cannot be read. -/
structure FirstAtFault (limits : ShowLimits) (records before : List Json) (j : Json) : Prop where
  split : ∃ after, records = before ++ j :: after
  before_read : ∀ r ∈ before, r.Readable limits
  fault : ¬ j.Readable limits

theorem forall_readable_or_firstAtFault (records : List Json) :
    (∀ j ∈ records, j.Readable limits) ∨ ∃ before j, FirstAtFault limits records before j := by
  classical
  cases hfind : records.find? fun j => ¬ j.Readable limits with
  | none => exact .inl fun j hj => by simpa using List.find?_eq_none.mp hfind j hj
  | some j =>
    obtain ⟨hj, before, after, hrecords, hbefore⟩ := List.find?_eq_some_iff_append.mp hfind
    refine .inr ⟨before, j, ⟨after, hrecords⟩, fun r hr => ?_, of_decide_eq_true hj⟩
    simpa using hbefore r hr

section Array

variable {records before : List Json} {j : Json}

theorem parseCatalog_of_readable (h : ∀ j ∈ records, j.Readable limits) :
    ∃ ps, parseCatalog limits (.arr records) = .ok ps ∧ TakenFrom limits records ps := by
  have hnil : TakenFrom limits [] [] := ⟨List.nodup_nil, rfl, fun p hp => nomatch hp⟩
  exact parseRecords_run hnil h 0

theorem FirstAtFault.parseCatalog_of_unnamed (h : FirstAtFault limits records before j)
    (hj : j.Unnamed) :
    parseCatalog limits (.arr records) = .error (.shape (.noName before.length)) := by
  obtain ⟨after, rfl⟩ := h.split
  apply parseRecords_fault h.before_read
  rw [Nat.zero_add]
  exact readRecord_of_unnamed hj _

theorem FirstAtFault.parseCatalog_of_named (h : FirstAtFault limits records before j)
    (hj : ¬ j.Unnamed) : parseCatalog limits (.arr records) = .error .tooDeep := by
  obtain ⟨after, rfl⟩ := h.split
  exact parseRecords_fault h.before_read (readRecord_of_deep hj h.fault _) [] after

end Array

/-- An array is read, or it has a first record at fault, with or without a name. -/
theorem parseCatalog_array_cases (records : List Json) :
    (∃ ps, parseCatalog limits (.arr records) = .ok ps ∧ ∀ j ∈ records, j.Readable limits) ∨
    ∃ before j, FirstAtFault limits records before j ∧
      (j.Unnamed ∧ parseCatalog limits (.arr records) = .error (.shape (.noName before.length)) ∨
        ¬ j.Unnamed ∧ parseCatalog limits (.arr records) = .error .tooDeep) := by
  rcases forall_readable_or_firstAtFault records with hread | ⟨before, j, hfirst⟩
  · obtain ⟨ps, hps, -⟩ := parseCatalog_of_readable hread
    exact .inl ⟨ps, hps, hread⟩
  · refine .inr ⟨before, j, hfirst, ?_⟩
    by_cases hj : j.Unnamed
    · exact .inl ⟨hj, hfirst.parseCatalog_of_unnamed hj⟩
    · exact .inr ⟨hj, hfirst.parseCatalog_of_named hj⟩

end Limits

/-- **What an array of records gives.** It is refused with the index of a record without a name if
this is the first record at fault, and the reading fails if the first one at fault has a name or a
field with too many levels. Otherwise the names come in the order in which they stand first in the
array, and each parameter is that of the last record with its name alone. -/
theorem parseCatalog_array (limits : ShowLimits) (records : List Json) :
    (∀ e, parseCatalog limits (.arr records) = .error (.shape e) ↔
      ∃ before j, FirstAtFault limits records before j ∧ j.Unnamed ∧ e = .noName before.length ∧
        e.message = "Catalog record " ++ toString before.length ++ " has no parameter name") ∧
    (parseCatalog limits (.arr records) = .error .tooDeep ↔
      ∃ before j, FirstAtFault limits records before j ∧ ¬ j.Unnamed) ∧
    ((∃ ps, parseCatalog limits (.arr records) = .ok ps ∧ TakenFrom limits records ps) ↔
      ∀ j ∈ records, j.Readable limits) := by
  refine ⟨fun e => ⟨fun h => ?_, ?_⟩, ⟨fun h => ?_, ?_⟩, ⟨?_, parseCatalog_of_readable⟩⟩
  · obtain ⟨ps, hps, -⟩ | ⟨before, j, hfirst, ⟨hj, heq⟩ | ⟨-, heq⟩⟩ :=
      parseCatalog_array_cases records
    · rw [h] at hps
      cases hps
    · rw [h] at heq
      cases heq
      exact ⟨before, j, hfirst, hj, rfl, rfl⟩
    · rw [h] at heq
      cases heq
  · rintro ⟨before, j, hfirst, hj, rfl, -⟩
    exact hfirst.parseCatalog_of_unnamed hj
  · obtain ⟨ps, hps, -⟩ | ⟨before, j, hfirst, ⟨-, heq⟩ | ⟨hj, -⟩⟩ :=
      parseCatalog_array_cases records
    · rw [h] at hps
      cases hps
    · rw [h] at heq
      cases heq
    · exact ⟨before, j, hfirst, hj⟩
  · rintro ⟨before, j, hfirst, hj⟩
    exact hfirst.parseCatalog_of_named hj
  · rintro ⟨ps, hps, -⟩
    obtain ⟨-, -, hread⟩ | ⟨before, j, -, ⟨-, heq⟩ | ⟨-, heq⟩⟩ := parseCatalog_array_cases records
    · exact hread
    · rw [hps] at heq
      cases heq
    · rw [hps] at heq
      cases heq

/-- A text and a number that are shown alike are one name, and the unit of the earlier record is
gone. Behind these records, the first one without a name is reported. -/
theorem parseCatalog_array_of_equal_texts :
    let records : List Json := [.obj [("name", .str "5"), ("unit", .str "AU")],
      .obj [("name", .str "b")], .obj [("name", .int 5), ("default", .bool true)]]
    let ps : List Parameter :=
      [⟨"5", "", ".true.", "", "", []⟩, ⟨"b", "", "", "", "", []⟩]
    (∀ j ∈ records, j.Readable .narrow) ∧ parseCatalog .narrow (.arr records) = .ok ps ∧
      TakenFrom .narrow records ps ∧
      parseCatalog .narrow (.arr (records ++ [.obj [("name", .int 0)], .null])) =
        .error (.shape (.noName 3)) := by
  intro records ps
  have hread : ∀ j ∈ records, j.Readable .narrow := by
    have hok : ∀ j ∈ records, (readRecord .narrow 0 j).isOk := by decide +kernel
    intro j hj
    specialize hok j hj
    cases hp : readRecord .narrow 0 j with
    | ok p => exact readable_of_readRecord hp
    | error e =>
      rw [hp] at hok
      cases hok
  have hps : parseCatalog .narrow (.arr records) = .ok ps := by decide +kernel
  obtain ⟨qs, hqs, htaken⟩ := (parseCatalog_array .narrow records).2.2.mpr hread
  obtain rfl : qs = ps := Except.ok.inj (hqs.symm.trans hps)
  refine ⟨hread, hps, htaken, ((parseCatalog_array .narrow _).1 _).mpr ?_⟩
  have hzero : Json.Unnamed (.obj [("name", .int 0)]) := .notGiven rfl .zero
  exact ⟨records, .obj [("name", .int 0)], ⟨⟨[.null], rfl⟩, hread, fun h => h.named hzero⟩, hzero,
    rfl, rfl⟩

theorem not_unnamed_nested (n : Nat) :
    ¬ Json.Unnamed (.obj [("name", Json.nested (n + 1))]) := by
  intro h
  cases h with
  | noObject h => exact h _ rfl
  | missing h => simp [Json.entry?] at h
  | notGiven h hname =>
    obtain rfl : Json.nested (n + 1) = _ := by simpa [Json.entry?] using h
    cases hname

/-- **An element without a name that is not reported**: a name with too many levels stands before
it. -/
theorem parseCatalog_array_behind_deep_name :
    let records : List Json := [.obj [("name", Json.nested 1014)], .null]
    (∃ j ∈ records, j.Unnamed) ∧ parseCatalog .narrow (.arr records) = .error .tooDeep ∧
      ¬ ∃ e, parseCatalog .narrow (.arr records) = .error (.shape e) := by
  intro records
  have hfirst : FirstAtFault .narrow records [] (.obj [("name", Json.nested 1014)]) := by
    refine ⟨⟨[.null], rfl⟩, by simp, fun h => ?_⟩
    have hlevels := h.name_shown
    simp [Json.getD, Json.get?, Json.entry?, Json.levels_nested, ShowLimits.narrow] at hlevels
  have hparse : parseCatalog .narrow (.arr records) = .error .tooDeep :=
    hfirst.parseCatalog_of_named (not_unnamed_nested 1013)
  refine ⟨⟨.null, by simp [records], .noObject (by simp)⟩, hparse, ?_⟩
  rintro ⟨e, he⟩
  rw [hparse] at he
  cases he

end DiskLens
