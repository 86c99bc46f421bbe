import DiskLens.Proofs.Catalog.Nesting
import DiskLens.Proofs.Service.Requests
import Mathlib.Data.List.Induction

/-!
# The life of a catalog

A service reads its source when a catalog is first asked for and at every reload, until the source
gives none. From then on it repeats the error of that time. A failure that is not the fault of the
source is not kept: the next request tries again.

* `World.exchanges`, `World.outcomes`, `World.reports`: what a service was asked and said in a run.
* `World.run_lived`: a run is told by its history.
* **`World.catalog_lifeCycle`**: reading, the catalog that is there, and errors along any run.
* **`World.reads_after_tooDeep`**: a request may read again without a reload.
-/

namespace DiskLens

/-! ## What a service was asked and said -/

namespace Step

/-- The step asks a service for its catalog, directly or through another request. -/
def asks (index : Nat) (s : Step) : Bool := (s.to? index).any (·.2.needsCatalog)

theorem asks_iff {index : Nat} {s : Step} :
    s.asks index ↔ ∃ limits r, s.to? index = some (limits, r) ∧ r.needsCatalog := by
  cases h : s.to? index with
  | none => simp [asks, h]
  | some q =>
    obtain ⟨limits, r⟩ := q
    simp [asks, h]

/-- The step reloads the catalog of a service. -/
def reloads (index : Nat) (s : Step) : Bool := (s.to? index).any (·.2 = .reload)

theorem to?_request (index : Nat) (limits : ShowLimits) (r : Request) :
    (Step.request index limits r).to? index = some (limits, r) := if_pos rfl

/-- The step, made after some others, is the first that asks a service for its catalog, or a
reload. -/
def IsLoad (index : Nat) (past : List Step) (s : Step) : Prop :=
  s.reloads index ∨ s.asks index ∧ ∀ s' ∈ past, s'.asks index = false

end Step

namespace World

/-- What a service was asked in a run, and what it said. -/
def exchanges (w : World) (index : Nat) (steps : List Step) : List (Request × StepReply) :=
  (steps.zip (w.run steps).1).filterMap fun p => (p.1.to? index).map (·.2, p.2)

/-- **What came of the requests for the catalog of a service**: `none` if it was there, or why it
was not. -/
def outcomes (w : World) (index : Nat) (steps : List Step) : List (Option LoadFailure) :=
  ((w.exchanges index steps).filter (·.1.needsCatalog)).map (·.2.failure?)

/-- The errors that a service reported in a run. -/
def reports (w : World) (index : Nat) (steps : List Step) : List LogEvent :=
  ((w.exchanges index steps).flatMap (·.2.events)).filter (·.isUnavailable)

/-- The catalog that a service has. -/
def present? (w : World) (index : Nat) : Option LoadedCatalog :=
  w.session.services[index]?.bind (·.catalog.present)

end World

/-! ## Along a run -/

namespace World

theorem run_append (w : World) (a b : List Step) :
    w.run (a ++ b) = ((w.run a).1 ++ ((w.run a).2.run b).1, ((w.run a).2.run b).2) := by
  induction a generalizing w with
  | nil => rfl
  | cons s a ih => simp [run, ih]

theorem length_run (w : World) (steps : List Step) : (w.run steps).1.length = steps.length := by
  induction steps generalizing w with
  | nil => rfl
  | cons s steps ih => simp [run, ih]

theorem run_snoc (w : World) (past : List Step) (s : Step) :
    (w.run (past ++ [s])).2 = ((w.run past).2.step s).2 := by
  rw [run_append]
  rfl

theorem exchanges_snoc (w : World) (index : Nat) (past : List Step) (s : Step) :
    w.exchanges index (past ++ [s]) = w.exchanges index past ++
      ((s.to? index).map (·.2, ((w.run past).2.step s).1)).toList := by
  have hlen := (w.length_run past).symm
  rw [exchanges, exchanges, run_append, List.zip_append hlen, List.filterMap_append]
  cases h : s.to? index <;> simp [run, h]

theorem outcomes_snoc (w : World) (index : Nat) (past : List Step) (s : Step) :
    w.outcomes index (past ++ [s]) = w.outcomes index past ++
      if s.asks index then [((w.run past).2.step s).1.failure?] else [] := by
  rw [outcomes, outcomes, exchanges_snoc, List.filter_append, List.map_append]
  congr 1
  rw [Step.asks]
  cases s.to? index with
  | none => rfl
  | some q => cases hq : q.2.needsCatalog <;> simp [hq]

theorem reports_snoc (w : World) (index : Nat) (past : List Step) (s : Step) :
    w.reports index (past ++ [s]) = w.reports index past ++
      if (s.to? index).isSome then
        ((w.run past).2.step s).1.events.filter (·.isUnavailable) else [] := by
  rw [reports, reports, exchanges_snoc, List.flatMap_append, List.filter_append]
  congr 1
  cases s.to? index <;> simp

/-- **Every run is told by its history**: what a service has in the end is what it was asked. -/
theorem run_lived (files : FileTree) (settings : List Settings) (index : Fin settings.length)
    (past : List Step) :
    (World.run ⟨files, .start settings⟩ past).2.session.Coherent ∧ ∃ svc,
      (World.run ⟨files, .start settings⟩ past).2.session.services[(index : Nat)]? = some svc ∧
        svc.catalog.Lived (settings.get index).source (past.countP (·.reloads index))
          (World.outcomes ⟨files, .start settings⟩ index past)
          (World.reports ⟨files, .start settings⟩ index past) := by
  induction past using List.reverseRecOn with
  | nil =>
    exact ⟨.start settings, .of index (settings.get index), by simp [run, Session.start], .of _⟩
  | append_singleton past s ih =>
    obtain ⟨hcoh, svc, hi, hlived⟩ := ih
    rw [run_snoc, outcomes_snoc, reports_snoc, List.countP_append, List.countP_singleton]
    refine ⟨step_coherent hcoh s, ?_⟩
    cases hs : s.to? index with
    | none =>
      refine ⟨svc, (step_other _ hs).trans hi, ?_⟩
      simpa [Step.asks, Step.reloads, hs] using hlived
    | some q =>
      obtain ⟨limits, r⟩ := q
      obtain ⟨hreply, hsvc, -⟩ := step_to hcoh hi hs
      refine ⟨_, hsvc, ?_⟩
      cases hr : r.needsCatalog with
      | false =>
        obtain ⟨answer, hresp, -⟩ := svc.respond_of_not_needsCatalog hr
        have hne : r ≠ .reload := by rintro rfl; cases hr
        rw [hresp] at hreply ⊢
        simpa [Step.asks, Step.reloads, hs, hr, hne, hreply, StepReply.events] using hlived
      | true =>
        obtain ⟨hsvc, hfail, hevents⟩ := svc.respond_of_needsCatalog hr
          ⟨(World.run ⟨files, .start settings⟩ past).2.files.read, limits⟩
        rw [hreply, hsvc, hfail, hevents]
        simpa [Step.asks, Step.reloads, Request.reloadCount, hs, hr] using hlived.consult _ r

theorem outcomes_eq_nil_iff (w : World) (index : Nat) (past : List Step) :
    w.outcomes index past = [] ↔ ∀ s ∈ past, s.asks index = false := by
  induction past using List.reverseRecOn with
  | nil => simp [outcomes, exchanges]
  | append_singleton past s ih =>
    rw [outcomes_snoc, List.append_eq_nil_iff, ih]
    cases h : s.asks index <;> simp [or_imp, forall_and, h]

/-- A step that asks for a catalog, seen from the catalog. -/
theorem step_consult {w : World} {index : Nat} {svc : Service} {s : Step} {limits : ShowLimits}
    {r : Request} (hcoh : w.session.Coherent) (hi : w.session.services[index]? = some svc)
    (hs : s.to? index = some (limits, r)) (hr : r.needsCatalog) :
    (w.step s).1.failure? = (r.consult ⟨w.files.read, limits⟩ svc.catalog).failure? ∧
      (w.step s).2.present? index =
        (r.consult ⟨w.files.read, limits⟩ svc.catalog).next.present := by
  obtain ⟨hreply, hsvc, -⟩ := step_to hcoh hi hs
  obtain ⟨hnext, hfail, -⟩ := svc.respond_of_needsCatalog hr ⟨w.files.read, limits⟩
  rw [hreply, hfail, present?, hsvc, hnext]
  exact ⟨rfl, rfl⟩

section History

variable {files : FileTree} {settings : List Settings} {index : Fin settings.length}

/-- A catalog that is there stays until the next reload. -/
theorem present?_step_of_not_reloads (past : List Step) {s : Step} {c : LoadedCatalog}
    (hs : s.reloads index = false)
    (hc : (World.run ⟨files, .start settings⟩ past).2.present? index = some c) :
    (World.run ⟨files, .start settings⟩ (past ++ [s])).2.present? index = some c := by
  obtain ⟨hcoh, svc, hi, -⟩ := run_lived files settings index past
  have hpresent : svc.catalog.present = some c := by
    rw [present?, hi] at hc
    exact hc
  rw [run_snoc]
  cases hto : s.to? index with
  | none => rw [present?, step_other _ hto, hi]; exact hpresent
  | some q =>
    obtain ⟨limits, r⟩ := q
    have hne : r ≠ .reload := by
      rintro rfl
      simp [Step.reloads, hto] at hs
    cases hr : r.needsCatalog with
    | false =>
      obtain ⟨-, hsvc, -⟩ := step_to hcoh hi hto
      obtain ⟨answer, hresp, -⟩ := svc.respond_of_not_needsCatalog hr
      rw [present?, hsvc, hresp]
      exact hpresent
    | true =>
      have hm : ¬ r.Misses svc.catalog := not_or.mpr ⟨hne, by simp [hpresent]⟩
      obtain ⟨c', hc', -, hconsult⟩ := Request.consult_of_not_misses hm
      rw [(step_consult hcoh hi hto hr).2, hconsult]
      exact hpresent

/-- **A load that does not fail** leaves the catalog of the file as it is then. -/
theorem present?_step_of_load {past : List Step} {s : Step} {limits : ShowLimits} {r : Request}
    (hto : s.to? index = some (limits, r)) (hs : s.IsLoad index past)
    (hok : ∀ o ∈ World.outcomes ⟨files, .start settings⟩ index (past ++ [s]), o = none) :
    ∃ c, (World.run ⟨files, .start settings⟩ (past ++ [s])).2.present? index = some c ∧
      loadParameters ⟨(World.run ⟨files, .start settings⟩ past).2.files.read, limits⟩
        (settings.get index).source = .ok c.catalog.parameters ∧
      c.catalog.generation = ((past ++ [s]).countP (·.reloads index) : Nat) := by
  obtain ⟨hcoh, svc, hi, hlived⟩ := run_lived files settings index past
  rw [outcomes_snoc] at hok
  -- the request finds no catalog
  obtain ⟨hr, hm⟩ : r.needsCatalog ∧ r.Misses svc.catalog := by
    obtain hs | ⟨hs, hfirst⟩ := hs
    · obtain rfl : r = .reload := by simpa [Step.reloads, hto] using hs
      exact ⟨rfl, .inl rfl⟩
    · refine ⟨by simpa [Step.asks, hto] using hs, .inr ?_⟩
      have hnone := hlived.present_iff
      rw [(outcomes_eq_nil_iff _ index past).mpr hfirst] at hnone
      simpa using hnone
  have hf : svc.catalog.fault = none := by
    rw [hlived.fault_eq_none_iff]
    intro e he
    cases hok _ (List.mem_append_left _ he)
  have hasks := Step.asks_iff.mpr ⟨limits, r, hto, hr⟩
  obtain ⟨hfail, hpresent⟩ := step_consult hcoh hi hto hr
  rw [Request.consult_of_misses hm] at hfail hpresent
  rw [run_snoc, List.countP_append, List.countP_singleton, ← hlived.generation_eq, hpresent]
  rw [← hlived.source_eq]
  cases hp : loadParameters ⟨(World.run ⟨files, .start settings⟩ past).2.files.read, limits⟩
      svc.catalog.source with
  | error e =>
    rw [if_pos hasks] at hok
    have hlast := hok _ (List.mem_append_right _ (List.mem_singleton_self _))
    rw [hfail, LazyCatalog.load_of_error (l := svc.catalog.cleared r.reloadCount) hf hp] at hlast
    cases hlast
  | ok ps =>
    refine ⟨_, (LazyCatalog.load_of_ok (l := svc.catalog.cleared r.reloadCount) hf hp).2, rfl, ?_⟩
    simp [LazyCatalog.cleared, Request.reloadCount, Step.reloads, hto]

/-- **The catalog of the last load** is there until the next one. -/
theorem present?_run_of_load {a b : List Step} {load : Step} {limits : ShowLimits} {r : Request}
    (hto : load.to? index = some (limits, r)) (hload : load.IsLoad index a)
    (hb : ∀ s ∈ b, s.reloads index = false)
    (hok : ∀ o ∈ World.outcomes ⟨files, .start settings⟩ index (a ++ load :: b), o = none) :
    ∃ c, (World.run ⟨files, .start settings⟩ (a ++ [load])).2.present? index = some c ∧
      (World.run ⟨files, .start settings⟩ (a ++ load :: b)).2.present? index = some c ∧
      loadParameters ⟨(World.run ⟨files, .start settings⟩ a).2.files.read, limits⟩
        (settings.get index).source = .ok c.catalog.parameters ∧
      c.catalog.generation = ((a ++ load :: b).countP (·.reloads index) : Nat) := by
  induction b using List.reverseRecOn with
  | nil =>
    obtain ⟨c, hc, hps, hgen⟩ := present?_step_of_load hto hload hok
    exact ⟨c, hc, hc, hps, hgen⟩
  | append_singleton b s ih =>
    rw [← List.cons_append, ← List.append_assoc] at hok ⊢
    have hs := hb s (List.mem_append_right _ (List.mem_singleton_self s))
    obtain ⟨c, hc, hlast, hps, hgen⟩ := ih (fun s' hs' => hb s' (List.mem_append_left _ hs'))
      fun o ho => hok o (by rw [outcomes_snoc]; exact List.mem_append_left _ ho)
    refine ⟨c, hc, present?_step_of_not_reloads _ hs hlast, hps, ?_⟩
    simp [hgen, List.countP_cons, hs]

/-- With a file that has a proper path, a failure is the fault of the source or a value with too
many levels. -/
theorem mem_outcomes {path : Path} (hsource : (settings.get index).source = .file path)
    (hnul : path.text.contains '\x00' = false) {past : List Step} {e : LoadFailure}
    (he : some e ∈ World.outcomes ⟨files, .start settings⟩ index past) :
    (∃ e', e = .source e') ∨ e = .tooDeep := by
  induction past using List.reverseRecOn with
  | nil => cases he
  | append_singleton past s ih =>
    rw [outcomes_snoc] at he
    obtain he | he := List.mem_append.mp he
    · exact ih he
    · split at he
      next hs =>
        obtain ⟨hcoh, svc, hi, hlived⟩ := run_lived files settings index past
        obtain ⟨limits, r, hto, hr⟩ := Step.asks_iff.mp hs
        rw [List.mem_singleton, (step_consult hcoh hi hto hr).1] at he
        obtain h | h := Request.of_failure?_consult he.symm
        · exact .inl h
        · rw [hlived.source_eq, hsource] at h
          exact loadParameters_error hnul h
      next => cases he

/-- No catalog is there before the first request and after one that was stopped. -/
theorem present_eq_none_iff {path : Path} (hsource : (settings.get index).source = .file path)
    (hnul : path.text.contains '\x00' = false) {past : List Step} {svc : Service}
    (hlived : svc.catalog.Lived (settings.get index).source (past.countP (·.reloads index))
      (World.outcomes ⟨files, .start settings⟩ index past)
      (World.reports ⟨files, .start settings⟩ index past))
    (hno : ∀ e, some (.source e) ∉ World.outcomes ⟨files, .start settings⟩ index past) :
    svc.catalog.present = none ↔ (∀ s ∈ past, s.asks index = false) ∨
      (World.outcomes ⟨files, .start settings⟩ index past).getLast? = some (some .tooDeep) := by
  rw [← Option.not_isSome_iff_eq_none, hlived.present_iff, ← outcomes_eq_nil_iff]
  rcases hlast : (World.outcomes ⟨files, .start settings⟩ index past).getLast? with _ | _ | e
  · simpa using List.getLast?_eq_none_iff.mp hlast
  · simp [List.ne_nil_of_mem (List.mem_of_getLast? hlast)]
  · have hmem := List.mem_of_getLast? hlast
    obtain ⟨e', rfl⟩ | rfl := mem_outcomes hsource hnul hmem
    · exact absurd hmem (hno e')
    · simp

/-- A catalog that is handed out is the one that is there afterwards. -/
theorem catalog?_step {past : List Step} {limits : ShowLimits} {r : Request} {c : LoadedCatalog}
    (hr : r = .get ∨ r = .reload)
    (hok : ∀ o ∈ World.outcomes ⟨files, .start settings⟩ index (past ++ [.request index limits r]),
      o = none)
    (hc : ((World.run ⟨files, .start settings⟩ past).2.step (.request index limits r)).2.present?
      index = some c) :
    ((World.run ⟨files, .start settings⟩ past).2.step (.request index limits r)).1.catalog? =
      some c.catalog := by
  obtain ⟨hcoh, svc, hi, -⟩ := run_lived files settings index past
  have hto := Step.to?_request index limits r
  have hneeds : r.needsCatalog := by obtain rfl | rfl := hr <;> rfl
  have hfail := hok _ (by
    rw [outcomes_snoc, if_pos (Step.asks_iff.mpr ⟨limits, r, hto, hneeds⟩)]
    exact List.mem_append_right _ (List.mem_singleton_self _))
  obtain ⟨hreply, -, -⟩ := step_to hcoh hi hto
  rw [(step_consult hcoh hi hto hneeds).2] at hc
  rw [(step_consult hcoh hi hto hneeds).1] at hfail
  rw [hreply]
  exact Service.catalog?_respond hr hfail hc

end History

/-- What comes of the first request is what comes of loading. -/
theorem outcomes_first_get (files : FileTree) (settings : List Settings)
    (index : Fin settings.length) {limits : ShowLimits} {e : LoadFailure}
    (he : loadParameters ⟨files.read, limits⟩ (settings.get index).source = .error e) :
    World.outcomes ⟨files, .start settings⟩ index [.request index limits .get] = [some e] := by
  obtain ⟨hcoh, svc, hi, hlived⟩ := run_lived files settings index []
  have hfault : svc.catalog.fault = none := hlived.fault_eq_none_iff.mpr fun _ h => nomatch h
  have hpresent : svc.catalog.present = none := by simpa using mt hlived.present_iff.mp (by nofun)
  have hto := Step.to?_request index limits .get
  rw [← hlived.source_eq] at he
  have hfail := LazyCatalog.load_of_error (l := svc.catalog.cleared 0) hfault he
  rw [← List.nil_append [Step.request index limits .get], outcomes_snoc,
    if_pos (Step.asks_iff.mpr ⟨limits, .get, hto, rfl⟩), (step_consult hcoh hi hto rfl).1,
    Request.consult_of_misses (.inr hpresent)]
  exact congrArg ([·]) hfail

/-- **The life of a catalog.** Take any run, a service whose source is a file with a proper path,
and one more request to it.

* The request reads the file if it needs the catalog, the source was not given up, and it is a
  reload, the first to need the catalog, or the first after a value with too many levels.
* As long as nothing failed, the service has the catalog of the last load, made of the file as it
  was then, and its generation counts the reloads; this is the catalog that `get` hands out.
* Once the source was given up, every request that needs the catalog gets the error of that time, no
  file is read, no catalog is there, and the error has been reported once.
* There is never both a catalog and an error. -/
theorem catalog_lifeCycle (files : FileTree) (settings : List Settings)
    (index : Fin settings.length) (path : Path) (hsource : (settings.get index).source = .file path)
    (hnul : path.text.contains '\x00' = false) (past : List Step) (limits : ShowLimits)
    (r : Request) :
    let start : World := ⟨files, .start settings⟩
    let now := (start.run past).2
    let next := now.step (.request index limits r)
    let outcomes := start.outcomes index past
    let all : List Step := past ++ [.request index limits r]
    (now.session.Reads index limits r path ↔
      r.needsCatalog ∧ (∀ e, some (.source e) ∉ outcomes) ∧
        (r = .reload ∨ (∀ s ∈ past, s.asks index = false) ∨
          outcomes.getLast? = some (some .tooDeep))) ∧
    (∀ a load limits' r' b, all = a ++ load :: b → load.to? index = some (limits', r') →
      load.IsLoad index a → (∀ s ∈ b, s.reloads index = false) →
      (∀ o ∈ start.outcomes index all, o = none) →
      ∃ c, (start.run (a ++ [load])).2.present? index = some c ∧ next.2.present? index = some c ∧
        loadParameters ⟨(start.run a).2.files.read, limits'⟩ (.file path) =
          .ok c.catalog.parameters ∧
        c.catalog.generation = (all.countP (·.reloads index) : Nat) ∧
        (r = .get ∨ r = .reload → next.1.catalog? = some c.catalog)) ∧
    (∀ e, some (.source e) ∈ outcomes →
      (r.needsCatalog → next.1.failure? = some (.source e)) ∧
        ¬ now.session.Reads index limits r path ∧
        (now.step (.request index limits .loaded)).1 = .reply .loaded ⟨.ok false, []⟩ ∧
        start.reports index all = [.unavailable e]) ∧
    ∀ svc, now.session.services[(index : Nat)]? = some svc →
      svc.catalog.present = none ∨ svc.catalog.fault = none := by
  intro start now next outcomes all
  obtain ⟨hcoh, svc, hi, hlived⟩ := run_lived files settings index past
  have hto := Step.to?_request index limits r
  have hreads : now.session.Reads index limits r path ↔ _ :=
    Session.reads_iff hcoh hi (hlived.source_eq.trans hsource)
  refine ⟨?_, ?_, ?_, ?_⟩
  · rw [hreads, hlived.fault_eq_none_iff]
    refine and_congr_right fun _ => and_congr_right fun hno => or_congr_right ?_
    exact present_eq_none_iff hsource hnul hlived hno
  · intro a load limits' r' b hall hto' hload hb hok
    obtain ⟨c, hc, hlast, hps, hgen⟩ := present?_run_of_load hto' hload hb (hall ▸ hok)
    rw [← hall, run_snoc] at hlast
    exact ⟨c, hc, hlast, hsource ▸ hps, hall ▸ hgen, fun hr => catalog?_step hr hok hlast⟩
  · intro e he
    have hfault := (hlived.fault_iff e).mpr he
    have hnone : svc.catalog.present = none := hlived.exclusive.resolve_right (by simp [hfault])
    have hconsult : ∀ loader, r.consult loader svc.catalog = _ :=
      Request.consult_of_fault hfault (.inr hnone)
    refine ⟨fun hr => ?_, fun h => ?_, ?_, ?_⟩
    · rw [(step_consult hcoh hi hto hr).1, hconsult]
      rfl
    · rw [hreads, hfault] at h
      cases h.2.1
    · rw [(step_to hcoh hi (Step.to?_request index limits .loaded)).1]
      simp [Service.respond, LazyCatalog.isLoaded, hnone]
    · obtain ⟨-, svc', -, hlived'⟩ := run_lived files settings index all
      have hfault' := (hlived'.fault_iff e).mpr (by
        rw [outcomes_snoc]
        exact List.mem_append_left _ he)
      rw [hlived'.reports_eq, hfault']
      rfl
  · intro svc' hi'
    obtain rfl := Option.some.inj (hi.symm.trans hi')
    exact hlived.exclusive

theorem proper_path : (Path.mk .relative ["c.json"]).text.contains '\x00' = false := by
  have htext : (Path.mk .relative ["c.json"]).text = "c.json" := by decide +kernel
  simp [htext]

theorem loadParameters_missing (limits : ShowLimits) :
    loadParameters ⟨FileTree.empty.read, limits⟩ (.file ⟨.relative, ["c.json"]⟩) =
      .error (.source (.unreadable ⟨.relative, ["c.json"]⟩ .notFound)) := by
  simp only [loadParameters, FileTree.read_eq _ proper_path]
  rfl

/-- A file that comes too late: the source stays given up, also for a reload. -/
theorem catalog_lifeCycle_of_missing_file :
    let path : Path := ⟨.relative, ["c.json"]⟩
    let settings : List Settings := [⟨.file path, ""⟩]
    let start : World := ⟨.empty, .start settings⟩
    let past : List Step := [.request 0 .ample .get, .edit [⟨path, some (Utf8.encode ['{', '}'])⟩]]
    let e : LoadError := .unreadable path .notFound
    path.text.contains '\x00' = false ∧ some (.source e) ∈ start.outcomes 0 past ∧
      ((start.run past).2.step (.request 0 .narrow .reload)).1.failure? = some (.source e) ∧
      ¬ (start.run past).2.session.Reads 0 .narrow .reload path ∧
      start.reports 0 (past ++ [.request 0 .narrow .reload]) = [.unavailable e] := by
  intro path settings start past e
  have hfirst : start.outcomes 0 [.request 0 .ample .get] = [some (.source e)] :=
    outcomes_first_get .empty settings ⟨0, by decide⟩ (loadParameters_missing .ample)
  have hmem : some (.source e) ∈ start.outcomes 0 past := by
    have hpast : past =
        [.request 0 .ample .get] ++ [.edit [⟨path, some (Utf8.encode ['{', '}'])⟩]] := rfl
    rw [hpast, outcomes_snoc, hfirst]
    exact List.mem_append_left _ (List.mem_singleton_self _)
  have hlife := catalog_lifeCycle .empty settings ⟨0, by decide⟩ path rfl proper_path past .narrow
    .reload
  obtain ⟨hfail, hreads, -, hreports⟩ := hlife.2.2.1 e hmem
  exact ⟨proper_path, hmem, hfail rfl, hreads, hreports⟩

/-- A value with too many levels is not the fault of the source: the next request reads again. -/
theorem reads_of_tooDeep (files : FileTree) (settings : List Settings)
    (index : Fin settings.length) {path : Path} (hsource : (settings.get index).source = .file path)
    {limits : ShowLimits}
    (he : loadParameters ⟨files.read, limits⟩ (.file path) = .error .tooDeep)
    (limits' : ShowLimits) :
    (World.run ⟨files, .start settings⟩ [.request index limits .get]).2.session.Reads index limits'
      .get path := by
  obtain ⟨hcoh, svc, hi, hlived⟩ := run_lived files settings index [.request index limits .get]
  rw [outcomes_first_get files settings index (hsource ▸ he)] at hlived
  rw [Session.reads_iff hcoh hi (hlived.source_eq.trans hsource), hlived.fault_eq_none_iff]
  refine ⟨rfl, by simp, .inr ?_⟩
  simpa using hlived.present_iff

/-- A tree with one file, a catalog whose only record has a name with too many levels. -/
def nestedFiles : FileTree := ⟨[(["c.json"], Utf8.encode (Json.nestedName 1014))], []⟩

theorem read_nestedFiles :
    nestedFiles.read ⟨.relative, ["c.json"]⟩ = .ok (Utf8.encode (Json.nestedName 1014)) := by
  rw [nestedFiles]
  -- the content does not matter, and is long
  generalize Utf8.encode (Json.nestedName 1014) = bytes
  rw [FileTree.read_eq _ proper_path]
  rfl

theorem loadParameters_nestedFiles {limits : ShowLimits} (h : limits.name ≤ 1014) :
    loadParameters ⟨nestedFiles.read, limits⟩ (.file ⟨.relative, ["c.json"]⟩) =
      .error .tooDeep := by
  simp only [loadParameters, read_nestedFiles]
  exact catalogFromBytes_nestedName _ h (by decide)

/-- **Not every read is a first one or a reload before any failure.** -/
theorem reads_after_tooDeep :
    let path : Path := ⟨.relative, ["c.json"]⟩
    let start : World := ⟨nestedFiles, .start [⟨.file path, ""⟩]⟩
    let past : List Step := [.request 0 .narrow .get]
    ¬ ((start.run past).2.session.Reads 0 .narrow .get path ↔
      (∀ s ∈ past, s.asks 0 = false) ∨
        Request.get = .reload ∧ ∀ o ∈ start.outcomes 0 past, o = none) := by
  intro path start past h
  have hread : (start.run past).2.session.Reads 0 .narrow .get path :=
    reads_of_tooDeep nestedFiles [⟨.file path, ""⟩] ⟨0, by decide⟩ rfl
      (loadParameters_nestedFiles (by decide)) .narrow
  obtain hfirst | ⟨hreload, -⟩ := h.mp hread
  · cases hfirst _ (List.mem_singleton_self _)
  · cases hreload

end World

end DiskLens
