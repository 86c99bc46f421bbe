import DiskLens.Proofs.Service.Isolation

/-!
# Requests for a catalog

What one request does to a catalog on demand, and how the catalog is told by the requests before.

* `Request.consult`: a request as the catalog sees it; `Request.Misses`: it finds none.
* **`LazyCatalog.Lived`**: the state of a catalog on demand, told by what was asked of it;
  `Lived.consult`: one more request.
* `Session.Reads`: a request reads a file, that is, what comes of it depends on the file.
* **`Session.reads_iff`**: when a request reads the source of its service.
-/

namespace DiskLens

/-! ## What a request needs and gets -/

/-- The request needs the catalog of its service. -/
def Request.needsCatalog : Request → Bool
  | .loaded | .situation _ => false
  | _ => true

namespace StepReply

/-- Why there was no catalog. -/
def failure? : StepReply → Option LoadFailure
  | .reply _ ⟨.error (.load e), _⟩ => some e
  | _ => none

/-- The catalog that was asked for. -/
def catalog? : StepReply → Option Catalog
  | .reply .get ⟨.ok c, _⟩ => some c
  | .reply .reload ⟨.ok c, _⟩ => some c
  | _ => none

/-- What was reported. -/
def events : StepReply → List LogEvent
  | .reply _ ⟨_, events⟩ => events
  | _ => []

end StepReply

/-- The event tells that a source gave no catalog. -/
def LogEvent.isUnavailable : LogEvent → Bool
  | .unavailable _ => true
  | _ => false

/-! ## Requests for a catalog -/

/-- Why there is no catalog. -/
def CatalogReply.failure? (r : CatalogReply) : Option LoadFailure :=
  match r.answer with
  | .ok _ => none
  | .error e => some e

namespace LazyCatalog

/-- The catalog on demand as a load finds it, after `m` more reloads. -/
def cleared (l : LazyCatalog) (m : Nat) : LazyCatalog :=
  { l with generation := l.generation + m, present := none }

theorem cleared_zero {l : LazyCatalog} (h : l.present = none) : l.cleared 0 = l := by
  rw [cleared, ← h]
  rfl

variable {l : LazyCatalog} {loader : Loader}

theorem load_of_ok {ps : List Parameter} (hf : l.fault = none)
    (hp : loadParameters loader l.source = .ok ps) :
    (l.load loader).failure? = none ∧
      (l.load loader).next.present = some ⟨l.loads, ps, l.generation⟩ := by
  have hload : loadCatalog loader l.source l.generation = .ok ⟨ps, l.generation⟩ := by
    rw [loadCatalog, hp]
    rfl
  simp [load, hf, hload, CatalogReply.failure?]

theorem load_of_error {e : LoadFailure} (hf : l.fault = none)
    (hp : loadParameters loader l.source = .error e) : (l.load loader).failure? = some e := by
  have hload : loadCatalog loader l.source l.generation = .error e := by
    rw [loadCatalog, hp]
    rfl
  cases e <;> simp [load, hf, hload, CatalogReply.failure?]

end LazyCatalog

namespace Request

/-- What a request that needs the catalog does to it. -/
def consult (loader : Loader) (l : LazyCatalog) : Request → CatalogReply
  | .reload => l.reload loader
  | _ => l.get loader

/-- How many reloads a request is. -/
def reloadCount (r : Request) : Nat := if r = .reload then 1 else 0

/-- The request finds no catalog to answer from. -/
def Misses (r : Request) (l : LazyCatalog) : Prop := r = .reload ∨ l.present = none

variable {r : Request} {l : LazyCatalog} {loader : Loader}

theorem consult_of_misses (h : r.Misses l) (loader : Loader) :
    r.consult loader l = (l.cleared r.reloadCount).load loader := by
  cases r with
  | reload => rfl
  | loaded | get | lookup | outline | situation | complete | hover =>
    obtain h | h := h
    · cases h
    · rw [reloadCount, if_neg (by simp), LazyCatalog.cleared_zero h]
      simp only [consult, LazyCatalog.get, h]

theorem consult_of_not_misses (h : ¬ r.Misses l) :
    ∃ c, l.present = some c ∧ r.reloadCount = 0 ∧
      ∀ loader, r.consult loader l = ⟨.ok c, [], l⟩ := by
  obtain ⟨hr, hp⟩ := not_or.mp h
  obtain ⟨c, hc⟩ := Option.ne_none_iff_exists'.mp hp
  refine ⟨c, hc, if_neg hr, fun loader => ?_⟩
  cases r with
  | reload => exact absurd rfl hr
  | loaded | get | lookup | outline | situation | complete | hover =>
    simp only [consult, LazyCatalog.get, hc]

/-- A failure is the fault of the source, now or before, or what the source gives now. -/
theorem of_failure?_consult {e : LoadFailure} (h : (r.consult loader l).failure? = some e) :
    (∃ e', e = .source e') ∨ loadParameters loader l.source = .error e := by
  by_cases hr : r.Misses l
  · rw [consult_of_misses hr] at h
    cases hf : (l.cleared r.reloadCount).fault with
    | some e' =>
      simp only [LazyCatalog.load, hf] at h
      cases h
      exact .inl ⟨e', rfl⟩
    | none =>
      cases hp : loadParameters loader (l.cleared r.reloadCount).source with
      | ok ps =>
        rw [(LazyCatalog.load_of_ok hf hp).1] at h
        cases h
      | error e' =>
        rw [LazyCatalog.load_of_error hf hp] at h
        cases h
        exact .inr hp
  · obtain ⟨c, -, -, hc⟩ := consult_of_not_misses hr
    rw [hc] at h
    cases h

/-- A source that was given up stays so, and nothing is reported again. -/
theorem consult_of_fault {e : LoadError} (hf : l.fault = some e) (hr : r.Misses l)
    (loader : Loader) : r.consult loader l = ⟨.error (.source e), [], l.cleared r.reloadCount⟩ := by
  rw [consult_of_misses hr, LazyCatalog.load]
  simp only [LazyCatalog.cleared, hf]

/-- Without a load the store does not matter. -/
theorem consult_congr (h : l.fault = none → ¬ r.Misses l) (loader loader' : Loader) :
    r.consult loader l = r.consult loader' l := by
  by_cases hr : r.Misses l
  · cases hf : l.fault with
    | none => exact absurd hr (h hf)
    | some e => rw [consult_of_fault hf hr, consult_of_fault hf hr]
  · obtain ⟨c, -, -, hc⟩ := consult_of_not_misses hr
    rw [hc, hc]

end Request

/-! ## The catalog, told by what was asked of it -/

namespace LazyCatalog

/-- **What a catalog on demand has lived through**: `reloads` reloads, requests with these outcomes,
and these errors reported. -/
structure Lived (l : LazyCatalog) (source : CatalogSource) (reloads : Nat)
    (outcomes : List (Option LoadFailure)) (reports : List LogEvent) : Prop where
  source_eq : l.source = source
  generation_eq : l.generation = reloads
  present_iff : l.present.isSome ↔ outcomes.getLast? = some none
  fault_iff : ∀ e, l.fault = some e ↔ some (.source e) ∈ outcomes
  exclusive : l.present = none ∨ l.fault = none
  reports_eq : reports = (l.fault.map .unavailable).toList

namespace Lived

variable {l : LazyCatalog} {source : CatalogSource} {n : Nat}
  {outcomes : List (Option LoadFailure)} {reports : List LogEvent}

theorem of (source : CatalogSource) : (LazyCatalog.of source).Lived source 0 [] [] :=
  ⟨rfl, rfl, by simp [LazyCatalog.of], by simp [LazyCatalog.of], .inl rfl, rfl⟩

theorem fault_eq_none_iff (h : l.Lived source n outcomes reports) :
    l.fault = none ↔ ∀ e, some (.source e) ∉ outcomes := by
  rw [Option.eq_none_iff_forall_ne_some]
  exact forall_congr' fun e => not_congr (h.fault_iff e)

/-- A load adds its outcome to what was lived through. -/
theorem load (h : l.Lived source n outcomes reports) (loader : Loader) (m : Nat) :
    ((l.cleared m).load loader).next.Lived source (n + m)
      (outcomes ++ [((l.cleared m).load loader).failure?])
      (reports ++ ((l.cleared m).load loader).events.filter (·.isUnavailable)) := by
  have hgen : (l.cleared m).generation = n + m := congrArg (· + m) h.generation_eq
  have hfault : (l.cleared m).fault = l.fault := rfl
  obtain ⟨e, he, hload⟩ | ⟨hnone, c, -, hload⟩ | ⟨hnone, e, -, hload⟩ | ⟨hnone, e, hne, -, hload⟩ :=
    (l.cleared m).load_cases loader
  · -- the error is repeated
    have hmem := (h.fault_iff e).mp he
    rw [hload]
    refine ⟨h.source_eq, hgen, by simp [cleared, CatalogReply.failure?], fun e' => ?_, .inl rfl, ?_⟩
    · rw [hfault, h.fault_iff]
      simp only [CatalogReply.failure?, List.mem_append, List.mem_singleton, Option.some.injEq]
      refine ⟨.inl, fun h' => h'.elim id fun h' => ?_⟩
      cases h'
      exact hmem
    · simp [h.reports_eq, hfault]
  · -- a catalog is found
    rw [hload]
    refine ⟨h.source_eq, hgen, by simp [CatalogReply.failure?], fun e' => ?_, .inr hnone, ?_⟩
    · simp [hfault, h.fault_iff, CatalogReply.failure?]
    · simp [h.reports_eq, hfault, LogEvent.isUnavailable]
  · -- the source is given up
    have hno := h.fault_eq_none_iff.mp hnone
    rw [hload]
    refine ⟨h.source_eq, hgen, by simp [cleared, CatalogReply.failure?], fun e' => ?_, .inl rfl, ?_⟩
    · simp [hno, CatalogReply.failure?, eq_comm]
    · simp [h.reports_eq, ← hfault, hnone, LogEvent.isUnavailable]
  · -- another failure is not kept
    rw [hload]
    refine ⟨h.source_eq, hgen, by simp [cleared, CatalogReply.failure?], fun e' => ?_, .inl rfl, ?_⟩
    · simp [hfault, h.fault_iff, CatalogReply.failure?, (hne e').symm]
    · simp [h.reports_eq, hfault]

/-- **So does any request for the catalog.** -/
theorem consult (h : l.Lived source n outcomes reports) (loader : Loader) (r : Request) :
    (r.consult loader l).next.Lived source (n + r.reloadCount)
      (outcomes ++ [(r.consult loader l).failure?])
      (reports ++ (r.consult loader l).events.filter (·.isUnavailable)) := by
  by_cases hr : r.Misses l
  · rw [Request.consult_of_misses hr]
    exact h.load loader r.reloadCount
  · obtain ⟨c, hc, hcount, hconsult⟩ := Request.consult_of_not_misses hr
    rw [hconsult, hcount]
    refine ⟨h.source_eq, h.generation_eq, ?_, fun e => ?_, h.exclusive, ?_⟩
    · simp [hc, CatalogReply.failure?]
    · simp [h.fault_iff, CatalogReply.failure?]
    · simp [h.reports_eq]

end Lived

end LazyCatalog

/-! ## Requests through a service -/

namespace Service

variable {svc : Service} {r : Request}

/-- A request fails to load exactly if the catalog does. -/
theorem failure?_reply {r : Request} (svc : Service) (cr : CatalogReply)
    {use : LoadedCatalog → Except ServiceError r.Answer} (huse : ∀ c e, use c ≠ .error (.load e)) :
    (StepReply.reply r (svc.reply cr use).1).failure? = cr.failure? := by
  cases hcr : cr.answer with
  | error e => simp only [reply, CatalogReply.failure?, StepReply.failure?, hcr]
  | ok c =>
    simp only [reply, CatalogReply.failure?, hcr]
    cases hu : use c with
    | ok a => rfl
    | error e =>
      cases e with
      | load e => exact absurd hu (huse c e)
      | contentType | noService => rfl

theorem respond_of_needsCatalog (svc : Service) (hr : r.needsCatalog) (loader : Loader) :
    (svc.respond loader r).2 = { svc with catalog := (r.consult loader svc.catalog).next } ∧
      (StepReply.reply r (svc.respond loader r).1).failure? =
        (r.consult loader svc.catalog).failure? ∧
      (StepReply.reply r (svc.respond loader r).1).events =
        (r.consult loader svc.catalog).events := by
  cases r with
  | loaded | situation => cases hr
  | get | reload | lookup | complete | hover =>
    refine ⟨rfl, svc.failure?_reply _ fun c e h => ?_, rfl⟩
    cases h
  | outline text contentType token =>
    refine ⟨rfl, svc.failure?_reply _ fun c e h => ?_, rfl⟩
    cases ho : outlineNamed text contentType token <;> rw [ho] at h <;> cases h

/-- The catalog that is handed out is the one that is kept. -/
theorem catalog?_respond {loader : Loader} {c : LoadedCatalog} (hr : r = .get ∨ r = .reload)
    (hok : (r.consult loader svc.catalog).failure? = none)
    (hc : (r.consult loader svc.catalog).next.present = some c) :
    (StepReply.reply r (svc.respond loader r).1).catalog? = some c.catalog := by
  cases hanswer : (r.consult loader svc.catalog).answer with
  | error e =>
    rw [CatalogReply.failure?, hanswer] at hok
    cases hok
  | ok c' =>
    obtain rfl | rfl := hr
    · obtain rfl := Option.some.inj ((LazyCatalog.get_present hanswer).symm.trans hc)
      simp only [Request.consult] at hanswer
      simp only [respond, reply, hanswer, StepReply.catalog?]
    · obtain rfl := Option.some.inj ((LazyCatalog.load_present hanswer).symm.trans hc)
      simp only [Request.consult] at hanswer
      simp only [respond, reply, hanswer, StepReply.catalog?]

theorem respond_of_not_needsCatalog (svc : Service) (hr : r.needsCatalog = false) :
    ∃ answer : Except ServiceError r.Answer,
      (∀ loader, svc.respond loader r = (⟨answer, []⟩, svc)) ∧
      (StepReply.reply r ⟨answer, []⟩).failure? = none := by
  cases r with
  | loaded | situation => exact ⟨_, fun _ => rfl, rfl⟩
  | get | reload | lookup | outline | complete | hover => cases hr

end Service

/-! ## Reading the source -/

/-- Reading a file with a proper path. -/
theorem FileTree.read_eq (files : FileTree) {path : Path}
    (hnul : path.text.contains '\x00' = false) :
    files.read path = match files.content path with
      | .error cause => .error (.file cause path)
      | .ok found => .ok found.2 := by
  rw [FileTree.read, Path.attempt, hnul, if_neg Bool.false_ne_true]
  cases files.content path <;> rfl

/-- What can go wrong with a file: it is at fault, a value has too many levels, or its path has a
NUL. -/
theorem loadParameters_file_error {loader : Loader} {path : Path} {e : LoadFailure}
    (h : loadParameters loader (.file path) = .error e) :
    (∃ e', e = .source e') ∨ e = .tooDeep ∨
      e = .nullByte ∧ loader.read path = .error .nullByte := by
  rw [loadParameters] at h
  cases hread : loader.read path with
  | error cause =>
    rw [hread] at h
    cases cause with
    | nullByte => exact .inr (.inr ⟨(Except.error.inj h).symm, rfl⟩)
    | file cause path => exact .inl ⟨_, (Except.error.inj h).symm⟩
  | ok bytes =>
    rw [hread] at h
    simp only [catalogFromBytes] at h
    split at h
    next => exact .inl ⟨_, (Except.error.inj h).symm⟩
    next j _ =>
      cases hj : parseCatalog loader.limits j with
      | ok ps => rw [hj] at h; cases h
      | error cause =>
        rw [hj] at h
        cases cause with
        | shape cause => exact .inl ⟨_, (Except.error.inj h).symm⟩
        | tooDeep => exact .inr (.inl (Except.error.inj h).symm)

/-- With a proper path, the source is at fault or a value has too many levels. -/
theorem loadParameters_error {files : FileTree} {limits : ShowLimits} {path : Path}
    {e : LoadFailure} (hnul : path.text.contains '\x00' = false)
    (h : loadParameters ⟨files.read, limits⟩ (.file path) = .error e) :
    (∃ e', e = .source e') ∨ e = .tooDeep := by
  obtain h | h | ⟨-, hread⟩ := loadParameters_file_error h
  · exact .inl h
  · exact .inr h
  · simp only [FileTree.read_eq files hnul] at hread
    cases hc : files.content path <;> rw [hc] at hread <;> cases hread

theorem Service.answer_congr {svc : Service} {loader loader' : Loader} {r : Request}
    (h : r.needsCatalog → r.consult loader svc.catalog = r.consult loader' svc.catalog)
    (cache : SuggestionCache) : svc.answer loader cache r = svc.answer loader' cache r := by
  cases r with
  | loaded | situation => rfl
  | get | reload | lookup | outline | complete | hover =>
    have hconsult := h rfl
    simp only [Request.consult] at hconsult
    simp only [Service.answer, hconsult]

/-- **A request reads a file**: what comes of it depends on what the store says of the file. -/
def Session.Reads (s : Session) (index : Nat) (limits : ShowLimits) (r : Request) (path : Path) :
    Prop :=
  ∃ read read' : Store, (∀ p, p ≠ path → read p = read' p) ∧
    s.request ⟨read, limits⟩ index r ≠ s.request ⟨read', limits⟩ index r

/-- **A request reads the source** if it needs the catalog, finds none, and the source was not given
up. -/
theorem Session.reads_iff {s : Session} {i : Nat} {svc : Service} {limits : ShowLimits}
    {r : Request} {path : Path} (hs : s.Coherent) (hi : s.services[i]? = some svc)
    (hsource : svc.catalog.source = .file path) :
    s.Reads i limits r path ↔ r.needsCatalog ∧ svc.catalog.fault = none ∧ r.Misses svc.catalog := by
  constructor
  · rintro ⟨read, read', -, hne⟩
    refine Classical.byContradiction fun hcon => hne ?_
    simp only [Session.request, hi]
    rw [Service.answer_congr fun hr => Request.consult_congr (fun hf hm => ?_) _ _]
    exact hcon ⟨hr, hf, hm⟩
  · rintro ⟨hr, hf, hm⟩
    -- two stores that refuse the file for different reasons
    let refuse (e : FileError) : Store := fun p =>
      if p = path then .error (.file e path) else .error .nullByte
    have hfail : ∀ e, (StepReply.reply r (s.request ⟨refuse e, limits⟩ i r).1).failure? =
        some (.source (.unreadable path e)) := by
      intro e
      have hanswer := (Service.answer_eq_respond hs hi ⟨refuse e, limits⟩ r).1
      have hload : loadParameters ⟨refuse e, limits⟩ svc.catalog.source =
          .error (.source (.unreadable path e)) := by
        simp [hsource, loadParameters, refuse]
      simp only [Session.request, hi, hanswer]
      rw [(svc.respond_of_needsCatalog hr ⟨refuse e, limits⟩).2.1, Request.consult_of_misses hm]
      exact LazyCatalog.load_of_error hf hload
    refine ⟨refuse .notFound, refuse .denied, fun p hp => by simp [refuse, hp], fun heq => ?_⟩
    have h := hfail .notFound
    rw [heq, hfail .denied] at h
    cases h

end DiskLens
