import DiskLens.Proofs.Completion.Recency
import DiskLens.Proofs.Service.LifeCycle

/-!
# When suggestions are made anew

All services of a session share one cache of sixteen keys, and any reload empties it. What the cache
counts and when it finds what it is asked for is told by the completions since it was last emptied.

* **`SuggestionUse`**, `World.use?`: the steps that look into the cache, and what for.
* `World.clears`: the steps that empty it; `World.usesSinceClear`: the uses since then.
* `World.CacheTold`: the cache is told by the uses, kept by every step (`CacheTold.step`).
* **`World.cache_counts`**: what the cache reports along any run.
-/

namespace DiskLens

/-! ## What looks into the cache and what empties it -/

/-- **A use of remembered suggestions**: those of one catalog in one situation. The catalog is that
of one load of one service. -/
structure SuggestionUse where
  service : Nat
  serial : Nat
  situation : Situation
deriving DecidableEq, Repr

/-- The name of a parameter is asked for. -/
def Situation.asksName : Situation → Bool
  | explicitBang | implicitBang => true
  | booleanLiteral | noCompletion => false

theorem Step.to?_eq_some_iff {s : Step} {i : Nat} {limits : ShowLimits} {r : Request} :
    s.to? i = some (limits, r) ↔ s = .request i limits r := by
  cases s with
  | request j limits' r' => simp [Step.to?]
  | edit | clearCache => simp [Step.to?]

namespace World

/-- **The use that a step makes**: it is a completion that asks for a name, and there is a
catalog. -/
def use? (w : World) : Step → Option SuggestionUse
  | .request index limits (.complete ctx) =>
    if (situation ctx).asksName then
      ((w.step (.request index limits (.complete ctx))).2.present? index).map
        fun c => ⟨index, c.serial, situation ctx⟩
    else none
  | _ => none

/-- The step empties the cache: it says so, or is a reload of some service, whatever comes of it. -/
def clears (w : World) : Step → Bool
  | .clearCache => true
  | .request index _ .reload => w.session.services[index]?.isSome
  | _ => false

/-- The steps of a run, each with the world it is made in. -/
def course (w : World) : List Step → List (World × Step)
  | [] => []
  | s :: steps => (w, s) :: (w.step s).2.course steps

/-- **The uses since the cache was last emptied**, the last one in front. -/
def usesSinceClear (w : World) (steps : List Step) : List SuggestionUse :=
  ((w.course steps).reverse.takeWhile fun p => !p.1.clears p.2).filterMap fun p => p.1.use? p.2

theorem course_snoc (w : World) (past : List Step) (s : Step) :
    w.course (past ++ [s]) = w.course past ++ [((w.run past).2, s)] := by
  induction past generalizing w with
  | nil => rfl
  | cons t past ih => simp [course, run, ih]

theorem usesSinceClear_snoc (w : World) (past : List Step) (s : Step) :
    w.usesSinceClear (past ++ [s]) = if (w.run past).2.clears s then []
      else ((w.run past).2.use? s).toList ++ w.usesSinceClear past := by
  rw [usesSinceClear, course_snoc, List.reverse_append, List.reverse_singleton,
    List.singleton_append, List.takeWhile_cons]
  cases (w.run past).2.clears s with
  | true => rfl
  | false => cases hu : (w.run past).2.use? s <;> simp [hu, usesSinceClear]

end World

/-! ## Catalogs on demand -/

namespace LazyCatalog

variable {l : LazyCatalog}

/-- The catalog that is there is of the generation that was last asked for. -/
def Current (l : LazyCatalog) : Prop :=
  ∀ c, l.present = some c → c.catalog.generation = l.generation

theorem Current.load (h : l.Current) (loader : Loader) :
    (l.load loader).next.Current ∧ (l.load loader).next.generation = l.generation := by
  obtain ⟨e, -, hl⟩ | ⟨-, c, hc, hl⟩ | ⟨-, e, -, hl⟩ | ⟨-, e, -, -, hl⟩ := l.load_cases loader
  · rw [hl]; exact ⟨h, rfl⟩
  · rw [hl]
    refine ⟨fun c' hc' => ?_, rfl⟩
    obtain rfl := Option.some.inj hc'
    rw [loadCatalog] at hc
    cases hp : loadParameters loader l.source with
    | error e => rw [hp] at hc; cases hc
    | ok ps => rw [hp] at hc; cases hc; rfl
  · rw [hl]; exact ⟨h, rfl⟩
  · rw [hl]; exact ⟨h, rfl⟩

/-- A request for the catalog keeps it current. Only a reload changes the generation. -/
theorem Current.consult (h : l.Current) (loader : Loader) (r : Request) :
    (r.consult loader l).next.Current ∧
      (r.consult loader l).next.generation = l.generation + r.reloadCount := by
  by_cases hr : r.Misses l
  · have hcleared : (l.cleared r.reloadCount).Current := fun c hc => nomatch hc
    rw [Request.consult_of_misses hr]
    exact hcleared.load loader
  · obtain ⟨c, -, hcount, hconsult⟩ := Request.consult_of_not_misses hr
    rw [hconsult, hcount]
    exact ⟨h, rfl⟩

/-- The catalog that is kept is the one that is handed out. -/
theorem get_next_present (loader : Loader) (l : LazyCatalog) :
    (l.get loader).next.present = (l.get loader).answer.toOption := by
  obtain ⟨c, hc, hg⟩ | ⟨hnone, hg⟩ := l.get_cases loader
  · rw [hg]
    exact hc
  · rw [hg]
    obtain ⟨e, -, hl⟩ | ⟨-, c, -, hl⟩ | ⟨-, e, -, hl⟩ | ⟨-, e, -, -, hl⟩ := l.load_cases loader <;>
      rw [hl]
    · exact hnone
    · rfl
    · exact hnone
    · exact hnone

end LazyCatalog

/-! ## One step -/

theorem completeWith_snd (cache : SuggestionCache) (service : Nat) (c : LoadedCatalog)
    (ctx : CompletionContext) :
    (completeWith cache service c ctx).2 = if (situation ctx).asksName then
        (cache.fetch cacheCapacity ⟨service, c.serial, situation ctx, c.catalog.generation⟩
          fun _ => baseSuggestions c.catalog ((situation ctx).lead?.getD "")).2
      else cache := by
  unfold completeWith
  cases situation ctx <;> rfl

/-- The key of a use, with the generation that its service is at. -/
def Session.keyOf (s : Session) (u : SuggestionUse) : SuggestionKey :=
  ⟨u.service, u.serial, u.situation,
    (s.services[u.service]?.elim 0 (·.catalog.generation) : Nat)⟩

theorem Session.keyOf_injective (s : Session) : Function.Injective s.keyOf := by
  rintro ⟨service, serial, situation⟩ ⟨service', serial', situation'⟩ h
  cases h
  rfl

namespace World

/-- **The cache is told by the uses** since it was last emptied. -/
structure CacheTold (w : World) (uses : List SuggestionUse) : Prop where
  coherent : w.session.Coherent
  current : ∀ (i : Nat) (svc : Service), w.session.services[i]? = some svc → svc.catalog.Current
  told : w.session.cache.ToldBy cacheCapacity (uses.map w.session.keyOf)

theorem step_of_missing {w : World} {i : Nat} (hi : w.session.services[i]? = none)
    (limits : ShowLimits) (r : Request) :
    w.step (.request i limits r) = (.reply r ⟨.error (.noService i), []⟩, w) := by
  simp only [World.step, Session.request, hi]

theorem services_step_eq_none {w : World} {s : Step} {i : Nat}
    (hi : w.session.services[i]? = none) : (w.step s).2.session.services[i]? = none := by
  cases hs : s.to? i with
  | none => rw [step_other w hs, hi]
  | some q => rw [Step.to?_eq_some_iff.mp hs, step_of_missing hi, hi]

/-- The use of a completion, seen from its service. -/
theorem use?_complete {w : World} {i : Nat} {svc : Service} (hcoh : w.session.Coherent)
    (hi : w.session.services[i]? = some svc) (limits : ShowLimits) (ctx : CompletionContext) :
    w.use? (.request i limits (.complete ctx)) = if (situation ctx).asksName then
      (svc.catalog.get ⟨w.files.read, limits⟩).answer.toOption.map (⟨i, ·.serial, situation ctx⟩)
    else none := by
  have hpresent : (w.step (.request i limits (.complete ctx))).2.present? i =
      (svc.catalog.get ⟨w.files.read, limits⟩).next.present :=
    (step_consult hcoh hi (Step.to?_request i limits _) rfl).2
  rw [use?, hpresent, LazyCatalog.get_next_present]

/-- A completion that asks for a name looks into the cache if it is answered. -/
theorem isSome_use?_complete {w : World} (hcoh : w.session.Coherent) (i : Nat)
    (limits : ShowLimits) (ctx : CompletionContext) :
    (w.use? (.request i limits (.complete ctx))).isSome ↔
      (situation ctx).asksName ∧ ∃ items events,
        (w.step (.request i limits (.complete ctx))).1 =
          .reply (.complete ctx) ⟨.ok items, events⟩ := by
  cases hi : w.session.services[i]? with
  | none =>
    simp [use?, present?, step_of_missing hi, hi]
  | some svc =>
    rw [use?_complete hcoh hi, (step_to hcoh hi (Step.to?_request i limits _)).1]
    cases (situation ctx).asksName with
    | false => simp
    | true =>
      cases hget : (svc.catalog.get ⟨w.files.read, limits⟩).answer with
      | error e => simp [Service.respond, Service.reply, hget, Except.toOption]
      | ok c => simp [Service.respond, Service.reply, hget, Except.toOption]

namespace CacheTold

variable {w : World} {uses : List SuggestionUse}

theorem start (files : FileTree) (settings : List Settings) :
    CacheTold ⟨files, .start settings⟩ [] := by
  refine ⟨.start settings, fun i svc hi c hc => ?_, RecentCache.toldBy_empty _⟩
  simp only [Session.start, List.getElem?_mapIdx, Option.map_eq_some_iff] at hi
  obtain ⟨cfg, -, rfl⟩ := hi
  cases hc

/-- What a step does to a service: its catalog stays current, and of the same generation unless the
cache is emptied. -/
theorem step_service (h : w.CacheTold uses) (s : Step) {i : Nat} {svc : Service}
    (hi : w.session.services[i]? = some svc) :
    ∃ svc', (w.step s).2.session.services[i]? = some svc' ∧ svc'.catalog.Current ∧
      (w.clears s = false → svc'.catalog.generation = svc.catalog.generation) := by
  have hcurrent := h.current i svc hi
  cases hs : s.to? i with
  | none => exact ⟨svc, (step_other w hs).trans hi, hcurrent, fun _ => rfl⟩
  | some q =>
    obtain ⟨limits, r⟩ := q
    refine ⟨_, (step_to h.coherent hi hs).2.1, ?_⟩
    cases hr : r.needsCatalog with
    | false =>
      obtain ⟨answer, hresp, -⟩ := svc.respond_of_not_needsCatalog hr
      rw [hresp]
      exact ⟨hcurrent, fun _ => rfl⟩
    | true =>
      rw [(svc.respond_of_needsCatalog hr ⟨w.files.read, limits⟩).1]
      refine ⟨(hcurrent.consult ⟨w.files.read, limits⟩ r).1, fun hclears => ?_⟩
      have hne : r ≠ .reload := by
        rintro rfl
        rw [Step.to?_eq_some_iff.mp hs, clears, hi] at hclears
        cases hclears
      rw [(hcurrent.consult ⟨w.files.read, limits⟩ r).2, Request.reloadCount, if_neg hne,
        Nat.add_zero]

/-- A use keeps its key until the cache is emptied. -/
theorem keyOf_step (h : w.CacheTold uses) {s : Step} (hs : w.clears s = false) :
    (w.step s).2.session.keyOf = w.session.keyOf := by
  funext u
  unfold Session.keyOf
  congr 2
  cases hi : w.session.services[u.service]? with
  | some svc =>
    obtain ⟨svc', hi', -, hgen⟩ := h.step_service s hi
    rw [hi']
    exact hgen hs
  | none => rw [services_step_eq_none hi]

/-- A completion looks for the key of its use. -/
theorem complete_cache (h : w.CacheTold uses) {i : Nat} {svc : Service}
    (hi : w.session.services[i]? = some svc) (limits : ShowLimits) (ctx : CompletionContext) :
    ∃ make, (svc.answer ⟨w.files.read, limits⟩ w.session.cache (.complete ctx)).2.2 =
      (w.use? (.request i limits (.complete ctx))).elim w.session.cache fun u =>
        (w.session.cache.fetch cacheCapacity (w.session.keyOf u) make).2 := by
  rw [use?_complete h.coherent hi]
  simp only [Service.answer, Service.complete]
  cases hget : (svc.catalog.get ⟨w.files.read, limits⟩).answer with
  | error e =>
    refine ⟨fun _ => [], ?_⟩
    cases (situation ctx).asksName <;> rfl
  | ok c =>
    -- the catalog is of the generation that the key of the use has
    obtain ⟨hcurrent, hgen⟩ := (h.current i svc hi).consult ⟨w.files.read, limits⟩ .get
    have hkey : w.session.keyOf ⟨i, c.serial, situation ctx⟩ =
        ⟨i, c.serial, situation ctx, c.catalog.generation⟩ := by
      rw [Session.keyOf, hi, hcurrent c (LazyCatalog.get_present hget), hgen]
      rfl
    refine ⟨fun _ => baseSuggestions c.catalog ((situation ctx).lead?.getD ""), ?_⟩
    rw [completeWith_snd, h.coherent.numbered i svc hi, ← hkey]
    cases (situation ctx).asksName <;> rfl

/-- **What a step does to the cache**: it empties it, looks for the key of its use, or leaves it
alone. -/
theorem step_cache (h : w.CacheTold uses) (s : Step) :
    ∃ make, (w.step s).2.session.cache = if w.clears s then .empty else
      (w.use? s).elim w.session.cache fun u =>
        (w.session.cache.fetch cacheCapacity (w.session.keyOf u) make).2 := by
  cases s with
  | edit edits =>
    refine ⟨fun _ => [], ?_⟩
    simp only [World.step]
    split <;> rfl
  | clearCache => exact ⟨fun _ => [], rfl⟩
  | request i limits r =>
    cases hi : w.session.services[i]? with
    | none =>
      refine ⟨fun _ => [], ?_⟩
      rw [step_of_missing hi]
      cases r <;> simp [clears, use?, present?, step_of_missing hi, hi]
    | some svc =>
      have hcache : (w.step (.request i limits r)).2.session.cache =
          (svc.answer ⟨w.files.read, limits⟩ w.session.cache r).2.2 := by
        simp only [World.step, Session.request, hi]
      rw [hcache]
      cases r with
      | loaded | get | lookup | outline | situation | hover => exact ⟨fun _ => [], rfl⟩
      | reload =>
        rw [clears, hi]
        exact ⟨fun _ => [], rfl⟩
      | complete ctx => exact h.complete_cache hi limits ctx

/-- **One more step.** -/
theorem step (h : w.CacheTold uses) (s : Step) :
    (w.step s).2.CacheTold (if w.clears s then [] else (w.use? s).toList ++ uses) := by
  obtain ⟨make, hcache⟩ := h.step_cache s
  refine ⟨step_coherent h.coherent s, fun i svc' hi' => ?_, ?_⟩
  · cases hi : w.session.services[i]? with
    | some svc =>
      obtain ⟨svc'', hi'', hcurrent, -⟩ := h.step_service s hi
      rw [Option.some.inj (hi'.symm.trans hi'')]
      exact hcurrent
    | none =>
      rw [services_step_eq_none hi] at hi'
      cases hi'
  · rw [hcache]
    cases hs : w.clears s with
    | true => exact RecentCache.toldBy_empty _
    | false =>
      rw [h.keyOf_step hs]
      cases w.use? s with
      | none => exact h.told
      | some u => exact (h.told.fetch _ make).1

/-- **Every run.** -/
theorem run (files : FileTree) (settings : List Settings) (past : List Step) :
    (World.run ⟨files, .start settings⟩ past).2.CacheTold
      (World.usesSinceClear ⟨files, .start settings⟩ past) := by
  induction past using List.reverseRecOn with
  | nil => exact .start files settings
  | append_singleton past s ih =>
    rw [run_snoc, usesSinceClear_snoc]
    exact ih.step s

/-- A step that uses the cache finds its key if this is among those used last. -/
theorem counts_step (h : w.CacheTold uses) {s : Step} {u : SuggestionUse}
    (hu : w.use? s = some u) :
    ((w.step s).2.session.cache.hits, (w.step s).2.session.cache.misses) =
      if u ∈ recentKeys cacheCapacity uses then
        (w.session.cache.hits + 1, w.session.cache.misses)
      else (w.session.cache.hits, w.session.cache.misses + 1) := by
  obtain ⟨make, hcache⟩ := h.step_cache s
  have hclears : w.clears s = false := by
    unfold use? at hu
    split at hu
    next => rfl
    next => cases hu
  have hmem : w.session.keyOf u ∈ recentKeys cacheCapacity (uses.map w.session.keyOf) ↔
      u ∈ recentKeys cacheCapacity uses := by
    rw [recentKeys_map w.session.keyOf_injective,
      List.mem_map_of_injective w.session.keyOf_injective]
  rw [hcache, hclears, hu]
  refine ((h.told.fetch _ make).2).trans ?_
  simp only [hmem]

end CacheTold

/-- **When suggestions are made anew.** Take any run, and the uses of remembered suggestions since
the cache was last emptied.

* The cache has counted these uses, and has as many keys as they are about, up to sixteen.
* A step that empties the cache leaves nothing, also no counts; one that neither empties nor uses it
  changes nothing.
* A use is a hit if it is among the sixteen last ones, each counted once, and otherwise a miss.
* A completion is a use if it asks for a name and is answered. -/
theorem cache_counts (files : FileTree) (settings : List Settings) (past : List Step) :
    let start : World := ⟨files, .start settings⟩
    let now := (start.run past).2
    let uses := start.usesSinceClear past
    let cache := now.session.cache
    cache.hits + cache.misses = uses.length ∧
    cache.entries.length = min 16 uses.toFinset.card ∧
    (∀ s,
      let next := (now.step s).2.session.cache
      (now.clears s → next = .empty) ∧
      (now.clears s = false → now.use? s = none → next = cache) ∧
      ∀ u, now.use? s = some u → (next.hits, next.misses) =
        if u ∈ recentKeys 16 uses then (cache.hits + 1, cache.misses)
        else (cache.hits, cache.misses + 1)) ∧
    ∀ index limits ctx, (now.use? (.request index limits (.complete ctx))).isSome ↔
      (situation ctx).asksName ∧ ∃ items events,
        (now.step (.request index limits (.complete ctx))).1 =
          .reply (.complete ctx) ⟨.ok items, events⟩ := by
  intro start now uses cache
  have htold : now.CacheTold uses := .run files settings past
  refine ⟨?_, ?_, fun s => ⟨fun hs => ?_, fun hs hu => ?_, fun u hu => htold.counts_step hu⟩,
    isSome_use?_complete htold.coherent⟩
  · rw [htold.told.count_eq, List.length_map]
  · have hkeys := congrArg List.length htold.told.keys_eq
    rw [recentKeys_map now.session.keyOf_injective, List.length_map, length_recentKeys,
      RecentCache.keys, List.length_map] at hkeys
    exact hkeys
  · obtain ⟨make, hcache⟩ := htold.step_cache s
    rw [hcache, if_pos hs]
  · obtain ⟨make, hcache⟩ := htold.step_cache s
    rw [hcache, hs, hu]
    rfl

/-- With nine services and two situations there are more keys than places: what was asked for first
is made anew, and what was asked for last is found. -/
theorem cache_counts_of_nine_services :
    let bang : CompletionContext := ⟨['!'], 1, none, .keyboard⟩
    let blank : CompletionContext := ⟨[], 0, none, .keyboard⟩
    let start : World := ⟨.empty, .start (List.replicate 9 .standard)⟩
    let past : List Step := (List.range 9).flatMap fun i =>
      [.request i .ample (.complete bang), .request i .narrow (.complete blank)]
    let now := (start.run past).2
    let first := (now.step (.request 0 .ample (.complete bang))).2.session.cache
    let last := (now.step (.request 8 .ample (.complete bang))).2.session.cache
    now.session.cache.entries.length = 16 ∧ (first.hits, first.misses) = (0, 19) ∧
      (last.hits, last.misses) = (1, 18) ∧
      (now.step (.request 0 .ample .reload)).2.session.cache = .empty := by
  intro bang blank start past now first last
  have hcounts := cache_counts .empty (List.replicate 9 .standard) past
  extract_lets uses cache at hcounts
  have huses : uses = (List.range 9).reverse.flatMap fun i =>
      [⟨i, 0, .implicitBang⟩, ⟨i, 0, .explicitBang⟩] := by decide +kernel
  have hhits : cache.hits = 0 := by decide +kernel
  have hmisses : cache.misses = 18 := by decide +kernel
  have huse : ∀ i ∈ [0, 8],
      now.use? (.request i .ample (.complete bang)) = some ⟨i, 0, .explicitBang⟩ := by
    decide +kernel
  have hclears : now.clears (.request 0 .ample .reload) := by decide +kernel
  -- nothing else is needed of the run, which is long
  clear_value now
  obtain ⟨-, hsize, hstep, -⟩ := hcounts
  refine ⟨?_, ?_, ?_, (hstep _).1 hclears⟩
  · rw [hsize, huses]
    decide +kernel
  · refine ((hstep _).2.2 _ (huse 0 (by decide))).trans ?_
    rw [huses, hhits, hmisses]
    decide +kernel
  · refine ((hstep _).2.2 _ (huse 8 (by decide))).trans ?_
    rw [huses, hhits, hmisses]
    decide +kernel

end World

end DiskLens
