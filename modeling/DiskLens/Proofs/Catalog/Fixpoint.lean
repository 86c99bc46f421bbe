import DiskLens.Proofs.Catalog.Layouts

/-!
# Catalogs of their own records

The parameters of a catalog, written as records, are a catalog again. It may have any of the
layouts and gives the same parameters, so reading takes a catalog into a form that it keeps.

* `Json.literal_ne_empty`, `pages_ne_empty`: a page that counts as given is no empty text.
* **`parameterOf_record`**: a parameter is read from its own record.
* **`parseCatalog_records`**: the parameters of a catalog are read from their own records.
-/

namespace DiskLens

/-! ## Pages -/

theorem DecimalStyle.pointed_ne_nil (ds : List Char) (point : Int) : pointed ds point ≠ [] := by
  unfold pointed
  dsimp only
  split
  next => simp
  next => split <;> simp

theorem DecimalStyle.decimalText_ne_nil (style : DecimalStyle) (c : Nat) (p : Int) :
    style.decimalText c p ≠ [] := by
  unfold decimalText
  dsimp only
  split
  next => exact pointed_ne_nil _ _
  next => simp [scientific, exponentText]

theorem DecimalStyle.text_ne_empty (style : DecimalStyle) (x : Binary64) : style.text x ≠ "" := by
  cases x with
  | finite negative m e =>
    rw [text, ← String.toList_inj.ne]
    cases negative with
    | true => simp
    | false =>
      by_cases hm : m = 0
      · simp [hm]
      · simpa [hm] using style.decimalText_ne_nil _ _
  | infinite negative => cases negative <;> simp [text]
  | nan => simp [text]

namespace Json

theorem toString_ne_empty (n : Int) : toString n ≠ "" := by
  rw [Int.toString_eq_repr, Int.repr_eq_if]
  split
  next => exact Nat.repr_ne_empty
  next => simp [String.append_eq_empty_iff]

/-- **No value is an empty literal.** -/
theorem literal_ne_empty (j : Json) : literal j ≠ "" := by
  cases j with
  | null => simp [literal]
  | bool b => cases b <;> simp [literal]
  | int n => exact toString_ne_empty n
  | real x => exact catalogStyle.text_ne_empty x
  | str s => simp [literal, quoted, quotedChars, ← String.toList_inj]
  | arr items => cases items <;> simp [literal, String.append_eq_empty_iff]
  | obj entries => cases entries <;> simp [literal, String.append_eq_empty_iff]

theorem display?_ne_empty {limit : Nat} {j : Json} (hj : isTruthy j) {text : String}
    (h : display? limit j = some text) : text ≠ "" := by
  rw [eq_shown_of_display? h]
  cases j with
  | str s => simpa [isTruthy, shown] using hj
  | null | bool | int | real | arr | obj => exact literal_ne_empty _

end Json

theorem mapM_display?_ne_empty {limit : Nat} {items : List Json} {pages : List String}
    (hitems : ∀ item ∈ items, item.isTruthy) (h : items.mapM (Json.display? limit) = some pages) :
    ∀ page ∈ pages, page ≠ "" := by
  induction items generalizing pages with
  | nil =>
    cases h
    simp
  | cons item items ih =>
    rw [List.forall_mem_cons] at hitems
    simp only [List.mapM_cons, Option.bind_eq_bind, Option.bind_eq_some_iff, Option.pure_def,
      Option.some.injEq] at h
    obtain ⟨page, hpage, pages, hpages, rfl⟩ := h
    rw [List.forall_mem_cons]
    exact ⟨Json.display?_ne_empty hitems.1 hpage, ih hitems.2 hpages⟩

section Limits

variable {limits : ShowLimits}

theorem fieldWiki?_ne_empty {j : Json} {pages : List String}
    (h : fieldWiki? limits j = some pages) : ∀ page ∈ pages, page ≠ "" := by
  cases j with
  | str s =>
    cases h
    by_cases hs : s = "" <;> simp [hs]
  | arr items => exact mapM_display?_ne_empty (by simp) h
  | null | bool | int | real | obj =>
    cases h
    simp

/-- **No page of a parameter that was read is an empty text.** -/
theorem pages_ne_empty {name : String} {j : Json} {p : Parameter}
    (h : parameterOf limits name j = .ok p) : ∀ page ∈ p.wiki, page ≠ "" := by
  obtain ⟨-, field, hpages⟩ := name_and_wiki_of_parameterOf h
  exact fieldWiki?_ne_empty hpages

theorem parseCatalog_pages_ne_empty {j : Json} {ps : List Parameter}
    (h : parseCatalog limits j = .ok ps) : ∀ p ∈ ps, ∀ page ∈ p.wiki, page ≠ "" := by
  refine parseCatalog_keeps (fun ps => ∀ p ∈ ps, ∀ page ∈ p.wiki, page ≠ "") ?_ (by simp) h
  intro name j p ps hp hps q hq
  obtain rfl | hq := mem_putParameter hq
  · exact pages_ne_empty hp
  · exact hps q hq

/-! ## Records -/

theorem mapM_display?_str (texts : List String) :
    (texts.map JsonOf.str).mapM (Json.display? limits.page) = some texts := by
  induction texts with
  | nil => rfl
  | cons text texts ih => simp [Json.display?, ih]

theorem fieldWiki?_pages {pages : List String} (h : ∀ page ∈ pages, page ≠ "") :
    fieldWiki? limits (.arr (pages.map .str)) = some pages := by
  have htruthy : (pages.map JsonOf.str).filter Json.isTruthy = pages.map .str := by
    rw [List.filter_eq_self]
    simpa [Json.isTruthy] using h
  rw [fieldWiki?, htruthy, mapM_display?_str]

/-- **A parameter is read from its own record.** -/
theorem parameterOf_record {p : Parameter} (h : ∀ page ∈ p.wiki, page ≠ "") :
    parameterOf limits p.name p.record = .ok p := by
  rw [Parameter.record, parameterOf_obj_ok_iff]
  simp [parameterOf?, Json.entry?, descriptionField, fieldText?, Json.display?,
    fieldWiki?_pages h]

theorem recordName_record {p : Parameter} (h : p.name ≠ "") (i : Nat) :
    recordName limits i p.record = .ok p.name :=
  recordName_of_name h rfl i

/-- The entries of an object from names to the records of parameters. -/
theorem parseEntries_records {ps : List Parameter} (hdistinct : (ps.map Parameter.name).Nodup)
    (hpages : ∀ p ∈ ps, ∀ page ∈ p.wiki, page ≠ "") :
    parseEntries limits [] (ps.map fun p => (p.name, p.record)) = .ok ps := by
  refine parseEntries_of_forall₂ ?_ ?_
  · rw [List.forall₂_map_left_iff, List.forall₂_same]
    exact fun p hp => parameterOf_record (hpages p hp)
  · simpa [Function.comp_def] using hdistinct

end Limits

/-- **The parameters of a catalog are read from their own records**, as an object from their names
and, if none of these is empty, in the older layouts; this needs no room for more than one level.
Each name finds its parameter, and no page is an empty text. -/
theorem parseCatalog_records (limits limits' : ShowLimits) {j : Json} {ps : List Parameter}
    (h : parseCatalog limits j = .ok ps) :
    (∀ (g : Int) (name : String) (p : Parameter),
      (Catalog.mk ps g).lookup name = some p ↔ p ∈ ps ∧ p.name = name) ∧
    (∀ p ∈ ps, ∀ page ∈ p.wiki, page ≠ "") ∧
    parseCatalog limits' (.obj (ps.map fun p => (p.name, p.record))) = .ok ps ∧
    ((∀ p ∈ ps, p.name ≠ "") →
      parseCatalog limits' (.arr (ps.map Parameter.record)) = .ok ps ∧
      ∀ others, Json.entry? "parameters" others = some (.arr (ps.map Parameter.record)) →
        parseCatalog limits' (.obj others) = .ok ps) := by
  have hdistinct : (ps.map Parameter.name).Nodup := parseCatalog_names_nodup h
  have hpages := parseCatalog_pages_ne_empty h
  have hentries : parseEntries limits' [] _ = _ := parseEntries_records hdistinct hpages
  refine ⟨fun g name p => ⟨fun hp => ?_, ?_⟩, hpages, ?_, fun hnames => ?_⟩
  · exact ⟨List.mem_of_find?_eq_some hp, by simpa using List.find?_some hp⟩
  · rintro ⟨hp, rfl⟩
    exact Catalog.lookup_of_mem hdistinct hp
  · rw [parseCatalog_obj, hentries]
    simp [Parameter.record]
  · have hrecords : parseRecords limits' 0 [] (ps.map Parameter.record) = .ok ps := by
      rw [← hentries]
      refine parseRecords_map (fun p hp => ?_) (fun p hp => ?_) 0 []
      · exact recordName_record (hnames p hp)
      · rfl
    refine ⟨hrecords, fun others hothers => ?_⟩
    rw [parseCatalog, hothers]
    exact hrecords

/-- Records in the oldest layout: one name comes twice and another one is a number, and pages are
mixed. -/
theorem parseCatalog_records_of_mixed_fields :
    let j : Json := .arr
      [.obj [("name", .str "a"), ("type", .null)],
        .obj [("name", .int 5), ("default", .bool true),
          ("wiki", .arr [.int 1, .str "", .str "p"])],
        .obj [("name", .str "a"), ("description", .arr [.null])]]
    let ps : List Parameter :=
      [⟨"a", "", "", "", "[None]", []⟩, ⟨"5", "", ".true.", "", "", ["1", "p"]⟩]
    parseCatalog .narrow j = .ok ps ∧
      parseCatalog .ample (.obj (ps.map fun p => (p.name, p.record))) = .ok ps ∧
      parseCatalog .ample (.arr (ps.map Parameter.record)) = .ok ps ∧
      parseCatalog .ample (.obj [("parameters", .arr (ps.map Parameter.record))]) = .ok ps := by
  intro j ps
  have hj : parseCatalog .narrow j = .ok ps := by decide +kernel
  obtain ⟨-, -, hobject, holder⟩ := parseCatalog_records .narrow .ample hj
  obtain ⟨hrecords, hunder⟩ := holder (by decide)
  exact ⟨hj, hobject, hrecords, hunder _ rfl⟩

end DiskLens
