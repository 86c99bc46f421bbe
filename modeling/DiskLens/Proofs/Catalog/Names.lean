import DiskLens.Catalog.Load

/-!
# Names in a catalog

A record takes the place of an earlier one with its name, so a catalog that was loaded has every
name once, and a name finds its own parameter.

* `names_putParameter`, `putParameter_of_notMem`: the names and parameters after one more record.
* **`parseCatalog_keeps`**: what one more record keeps is so of all parameters.
* **`loadCatalog_names_nodup`**: the names of a loaded catalog are distinct.
* **`Catalog.lookup_of_mem`**: the parameter that a name finds.
-/

namespace DiskLens

/-- The name keeps its place, or comes last. -/
theorem names_putParameter (p : Parameter) (ps : List Parameter) :
    (putParameter p ps).map Parameter.name =
      if p.name ∈ ps.map Parameter.name then ps.map Parameter.name
      else ps.map Parameter.name ++ [p.name] := by
  induction ps with
  | nil => rfl
  | cons q ps ih =>
    rw [putParameter]
    by_cases hq : q.name = p.name
    · rw [if_pos hq, if_pos (by simp [hq]), List.map_cons, List.map_cons, hq]
    · rw [if_neg hq, List.map_cons, ih]
      by_cases hp : p.name ∈ ps.map Parameter.name
      · rw [if_pos hp, if_pos (by simp [hp])]
        rfl
      · rw [if_neg hp, if_neg (by simp [Ne.symm hq, hp])]
        rfl

theorem putParameter_of_notMem {p : Parameter} {ps : List Parameter}
    (h : p.name ∉ ps.map Parameter.name) : putParameter p ps = ps ++ [p] := by
  induction ps with
  | nil => rfl
  | cons q ps ih =>
    rw [List.map_cons, List.mem_cons, not_or] at h
    rw [putParameter, if_neg (Ne.symm h.1), ih h.2]
    rfl

theorem mem_putParameter {p q : Parameter} {ps : List Parameter} (h : q ∈ putParameter p ps) :
    q = p ∨ q ∈ ps := by
  induction ps with
  | nil => exact .inl (List.mem_singleton.mp h)
  | cons r ps ih =>
    rw [putParameter] at h
    split at h
    next => exact (List.mem_cons.mp h).imp_right (List.mem_cons_of_mem r)
    next =>
      obtain rfl | h := List.mem_cons.mp h
      · exact .inr List.mem_cons_self
      · exact (ih h).imp_right (List.mem_cons_of_mem r)

theorem names_putParameter_nodup {ps : List Parameter} (h : (ps.map Parameter.name).Nodup)
    (p : Parameter) : ((putParameter p ps).map Parameter.name).Nodup := by
  rw [names_putParameter]
  by_cases hp : p.name ∈ ps.map Parameter.name
  · rw [if_pos hp]
    exact h
  · rw [if_neg hp, List.nodup_append]
    refine ⟨h, List.pairwise_singleton .., fun name hname last hlast => ?_⟩
    rw [List.mem_singleton.mp hlast]
    exact fun heq => hp (heq ▸ hname)

/-! ## Loading -/

section Loading

variable {limits : ShowLimits} (holds : List Parameter → Prop)
  (hput : ∀ {name j p ps}, parameterOf limits name j = .ok p → holds ps →
    holds (putParameter p ps))

include hput

theorem parseRecords_keeps {i : Nat} {done ps : List Parameter} {records : List Json}
    (hdone : holds done) (h : parseRecords limits i done records = .ok ps) : holds ps := by
  induction records generalizing i done with
  | nil =>
    cases h
    exact hdone
  | cons record records ih =>
    rw [parseRecords] at h
    split at h
    next => cases h
    next name hname =>
      split at h
      next => cases h
      next p hp => exact ih (hput hp hdone) h

theorem parseEntries_keeps {done ps : List Parameter} {entries : List (String × Json)}
    (hdone : holds done) (h : parseEntries limits done entries = .ok ps) : holds ps := by
  induction entries generalizing done with
  | nil =>
    cases h
    exact hdone
  | cons entry entries ih =>
    rw [parseEntries] at h
    split at h
    next => cases h
    next p hp => exact ih (hput hp hdone) h

/-- **What one more record keeps is so of the parameters of a catalog**, in every layout. -/
theorem parseCatalog_keeps {j : Json} {ps : List Parameter} (hnil : holds [])
    (h : parseCatalog limits j = .ok ps) : holds ps := by
  unfold parseCatalog at h
  split at h
  next => exact parseRecords_keeps holds hput hnil h
  next =>
    split at h
    next => exact parseRecords_keeps holds hput hnil h
    next => exact parseEntries_keeps holds hput hnil h
  next => cases h

end Loading

theorem parseCatalog_names_nodup {limits : ShowLimits} {j : Json} {ps : List Parameter}
    (h : parseCatalog limits j = .ok ps) : (ps.map Parameter.name).Nodup :=
  parseCatalog_keeps (fun ps => (ps.map Parameter.name).Nodup)
    (fun _ hps => names_putParameter_nodup hps _) List.nodup_nil h

/-- **The names of a loaded catalog are distinct.** -/
theorem loadCatalog_names_nodup {loader : Loader} {source : CatalogSource} {generation : Int}
    {c : Catalog} (h : loadCatalog loader source generation = .ok c) : c.names.Nodup := by
  have hparameters : loadParameters loader source = .ok c.parameters := by
    unfold loadCatalog at h
    cases hload : loadParameters loader source with
    | error e =>
      rw [hload] at h
      cases h
    | ok ps =>
      rw [hload] at h
      cases h
      rfl
  unfold loadParameters at hparameters
  split at hparameters
  next =>
    show (c.parameters.map Parameter.name).Nodup
    rw [← Except.ok.inj hparameters]
    decide
  next path =>
    split at hparameters
    next => cases hparameters
    next => cases hparameters
    next bytes hbytes =>
      unfold catalogFromBytes at hparameters
      split at hparameters
      next => cases hparameters
      next j hj =>
        cases hparse : parseCatalog loader.limits j with
        | error e =>
          rw [hparse] at hparameters
          cases hparameters
        | ok ps =>
          rw [hparse] at hparameters
          cases hparameters
          exact parseCatalog_names_nodup hparse
  next => cases hparameters

/-! ## Looking up -/

/-- **The name of a parameter finds it**, where names are distinct. -/
theorem Catalog.lookup_of_mem {c : Catalog} {p : Parameter} (hnames : c.names.Nodup)
    (hp : p ∈ c.parameters) : c.lookup p.name = some p := by
  obtain ⟨before, behind, hc⟩ := List.append_of_mem hp
  rw [Catalog.lookup, List.find?_eq_some_iff_append]
  refine ⟨by simp, before, behind, hc, fun q hq => ?_⟩
  have hdisjoint : q.name ≠ p.name := by
    rw [Catalog.names, hc, List.map_append, List.nodup_append] at hnames
    exact hnames.2.2 q.name (List.mem_map_of_mem hq) p.name (by simp)
  simpa using hdisjoint

end DiskLens
