import DiskLens.Proofs.Service.Catalogs

/-!
# Services do not notice each other

The services of a session share one bounded cache of suggestions, and any of them may empty it. No
answer shows this: a service says what it would say alone, if it made its suggestions afresh for
every request.

* `Service.respond`: a request to a service that remembers no suggestions.
* **`LoneWorld`**: files and one such service; `LoneWorld.run` is a run of it.
* `SuggestionCache.Truthful`: what is remembered under a key is what the catalog of the key gives.
* `Session.Coherent`: the invariant of a session, kept by every step (`World.step_coherent`).
* **`World.replies_isolated`**: the replies of a service in a shared run are those of its own run.
-/

namespace DiskLens

/-! ## A service alone -/

namespace Service

/-- **One request to a service that remembers no suggestions**: the reply, and the service after
it. -/
def respond (loader : Loader) (svc : Service) : (r : Request) → Reply r.Answer × Service
  | .loaded => (⟨.ok svc.catalog.isLoaded, []⟩, svc)
  | .get => svc.reply (svc.catalog.get loader) fun c => .ok c.catalog
  | .reload => svc.reply (svc.catalog.reload loader) fun c => .ok c.catalog
  | .lookup name => svc.reply (svc.catalog.get loader) fun c => .ok (c.catalog.lookup name)
  | .outline text contentType token =>
    svc.reply (svc.catalog.get loader) fun _ =>
      (outlineNamed text contentType token).mapError .contentType
  | .situation ctx => (⟨.ok (DiskLens.situation ctx), []⟩, svc)
  | .complete ctx =>
    svc.reply (svc.catalog.get loader) fun c => .ok (DiskLens.complete c.catalog ctx)
  | .hover line cursor =>
    svc.reply (svc.catalog.get loader) fun c =>
      .ok (DiskLens.hover c.catalog svc.settings.wikiBase line cursor)

end Service

/-- Files and one service that reads them. -/
structure LoneWorld where
  files : FileTree
  service : Service

namespace LoneWorld

/-- One step, and the world after it. Every request is to the one service, and there is no cache. -/
def step (w : LoneWorld) : Step → StepReply × LoneWorld
  | .request _ limits r =>
    let (reply, service) := w.service.respond ⟨w.files.read, limits⟩ r
    (.reply r reply, { w with service })
  | .edit edits =>
    match w.files.editAll edits with
    | (.ok _, files) => (.done, { w with files })
    | (.error e, files) => (.refused e, { w with files })
  | .clearCache => (.done, w)

/-- **A run of one service**: what its steps give, in order, and the world after it. -/
def run (w : LoneWorld) : List Step → List StepReply × LoneWorld
  | [] => ([], w)
  | s :: steps =>
    let (reply, next) := w.step s
    let (replies, last) := next.run steps
    (reply :: replies, last)

end LoneWorld

namespace Step

/-- The request to a service that a step makes, and the limits of its caller. -/
def to? (index : Nat) : Step → Option (ShowLimits × Request)
  | .request i limits r => if i = index then some (limits, r) else none
  | _ => none

/-- The step is one of a service or a change of the files. -/
def concerns (index : Nat) : Step → Bool
  | .request i _ _ => i = index
  | .edit _ => true
  | .clearCache => false

end Step

/-- What a run gives for the steps that concern a service. -/
def World.repliesTo (w : World) (index : Nat) (steps : List Step) : List StepReply :=
  ((steps.zip (w.run steps).1).filter (·.1.concerns index)).map (·.2)

/-! ## The cache -/

namespace RecentCache

variable {κ α : Type} [DecidableEq κ] {cache : RecentCache κ α} {key : κ} {make : Unit → α}

theorem mem_of_get? {value : α} (h : cache.get? key = some value) :
    (key, value) ∈ cache.entries := by
  rw [get?, Option.map_eq_some_iff] at h
  obtain ⟨⟨k, v⟩, hfind, hv⟩ := h
  have hk := List.find?_some hfind
  simp only [decide_eq_true_eq] at hk hv
  subst hk hv
  exact List.mem_of_find?_eq_some hfind

/-- A fetch gives the value that would be made, if all values under the key are that value. -/
theorem fetch_fst (capacity : Nat) (h : ∀ value, (key, value) ∈ cache.entries → value = make ()) :
    (cache.fetch capacity key make).1 = make () := by
  unfold fetch
  split
  next value hv => exact h value (mem_of_get? hv)
  next => rfl

theorem mem_fetch {capacity : Nat} {e : κ × α}
    (h : e ∈ (cache.fetch capacity key make).2.entries) :
    e ∈ cache.entries ∨ e = (key, (cache.fetch capacity key make).1) := by
  unfold fetch at h ⊢
  split at h
  next value hv =>
    obtain rfl | h := List.mem_cons.mp h
    · exact .inr rfl
    · exact .inl (List.mem_filter.mp h).1
  next hv =>
    obtain rfl | h := List.mem_cons.mp (List.mem_of_mem_take h)
    · exact .inr rfl
    · exact .inl h

end RecentCache

/-- **The cache tells the truth about a catalog**: what is remembered under its number is what it
gives. -/
def SuggestionCache.Truthful (cache : SuggestionCache) (number : Nat) (c : LoadedCatalog) : Prop :=
  ∀ e ∈ cache.entries, e.1.service = number → e.1.serial = c.serial →
    ∀ lead, e.1.situation.lead? = some lead → e.2 = baseSuggestions c.catalog lead

namespace SuggestionCache.Truthful

variable {cache : SuggestionCache} {number : Nat} {c : LoadedCatalog}

/-- With a truthful cache a completion is what the catalog gives. -/
theorem completeWith_fst (h : cache.Truthful number c) (ctx : CompletionContext) :
    (completeWith cache number c ctx).1 = complete c.catalog ctx := by
  unfold completeWith complete suggestionsFor
  cases hl : (situation ctx).lead? with
  | none => simp only [hl]
  | some lead =>
    simp only [hl]
    congr 1
    exact RecentCache.fetch_fst _ fun value hv => h _ hv rfl rfl lead hl

/-- A completion remembers nothing but what the catalog gives. -/
theorem mem_completeWith (h : cache.Truthful number c) {ctx : CompletionContext}
    {e : SuggestionKey × List BaseSuggestion}
    (he : e ∈ (completeWith cache number c ctx).2.entries) :
    e ∈ cache.entries ∨ (e.1.service = number ∧ e.1.serial = c.serial ∧
      ∀ lead, e.1.situation.lead? = some lead → e.2 = baseSuggestions c.catalog lead) := by
  unfold completeWith at he
  cases hl : (situation ctx).lead? with
  | none =>
    simp only [hl] at he
    exact .inl he
  | some lead =>
    simp only [hl] at he
    obtain he | rfl := RecentCache.mem_fetch he
    · exact .inl he
    · refine .inr ⟨rfl, rfl, fun lead' hl' => ?_⟩
      obtain rfl := Option.some.inj (hl.symm.trans hl')
      exact RecentCache.fetch_fst _ fun value hv => h _ hv rfl rfl lead hl

end SuggestionCache.Truthful

/-! ## The invariant of a session -/

/-- **A session whose cache cannot mislead**: services know their places, the numbers of catalogs
and in keys have been reached, and the cache tells the truth about every catalog that is there. -/
structure Session.Coherent (s : Session) : Prop where
  numbered : ∀ (i : Nat) (svc : Service), s.services[i]? = some svc → svc.number = i
  reached : ∀ (i : Nat) (svc : Service) (c : LoadedCatalog), s.services[i]? = some svc →
    svc.catalog.present = some c → c.serial < svc.catalog.loads
  spent : ∀ e ∈ s.cache.entries, ∀ svc, s.services[e.1.service]? = some svc →
    e.1.serial < svc.catalog.loads
  truthful : ∀ (i : Nat) (svc : Service) (c : LoadedCatalog), s.services[i]? = some svc →
    svc.catalog.present = some c → s.cache.Truthful i c

namespace Session.Coherent

variable {s : Session} {i : Nat} {svc : Service}

theorem start (settings : List Settings) : (Session.start settings).Coherent := by
  have hsvc : ∀ (i : Nat) (svc : Service), (Session.start settings).services[i]? = some svc →
      svc.number = i ∧ svc.catalog.present = none := by
    intro i svc hi
    simp only [Session.start, List.getElem?_mapIdx, Option.map_eq_some_iff] at hi
    obtain ⟨cfg, -, rfl⟩ := hi
    exact ⟨rfl, rfl⟩
  refine ⟨fun i svc hi => (hsvc i svc hi).1, fun i svc c hi hc => ?_, fun e he => ?_,
    fun i svc c hi hc => ?_⟩
  · rw [(hsvc i svc hi).2] at hc
    cases hc
  · cases he
  · rw [(hsvc i svc hi).2] at hc
    cases hc

/-- The cache may be emptied at any time. -/
theorem forget (hs : s.Coherent) : Coherent ⟨s.services, .empty⟩ := by
  refine ⟨hs.numbered, hs.reached, fun e he => ?_, fun i svc c hi hc e he => ?_⟩
  · cases he
  · cases he

/-- A service may move on to a catalog that comes after its own. -/
theorem advance (hs : s.Coherent) (hi : s.services[i]? = some svc) {l : LazyCatalog}
    (hl : svc.catalog.Follows l) :
    Coherent ⟨s.services.set i { svc with catalog := l }, s.cache⟩ := by
  -- a service of the new list is the one that moved on, or one of the old list
  have hcases : ∀ (j : Nat) (svc' : Service),
      (s.services.set i { svc with catalog := l })[j]? = some svc' →
        (j = i ∧ svc' = { svc with catalog := l }) ∨ s.services[j]? = some svc' := by
    intro j svc' hj
    rw [List.getElem?_set] at hj
    split at hj
    next h =>
      rw [if_pos (List.getElem?_eq_some_iff.mp hi).1] at hj
      exact .inl ⟨h.symm, (Option.some.inj hj).symm⟩
    next => exact .inr hj
  refine ⟨fun j svc' hj => ?_, fun j svc' c hj hc => ?_, fun e he svc' hj => ?_,
    fun j svc' c hj hc e he hn hser => ?_⟩
  · obtain ⟨rfl, rfl⟩ | hj := hcases j svc' hj
    · exact hs.numbered j svc hi
    · exact hs.numbered j svc' hj
  · obtain ⟨rfl, rfl⟩ | hj := hcases j svc' hj
    · obtain hc | hc := hl.2 c hc
      · exact Nat.lt_of_lt_of_le (hs.reached j svc c hi hc) hl.1
      · exact hc.2
    · exact hs.reached j svc' c hj hc
  · obtain ⟨hji, rfl⟩ | hj := hcases _ svc' hj
    · exact Nat.lt_of_lt_of_le (hs.spent e he svc (hji ▸ hi)) hl.1
    · exact hs.spent e he svc' hj
  · obtain ⟨rfl, rfl⟩ | hj := hcases j svc' hj
    · obtain hc | hc := hl.2 c hc
      · exact hs.truthful j svc c hi hc e he hn hser
      · -- no key has the number of a new catalog
        have := hs.spent e he svc (hn ▸ hi)
        omega
    · exact hs.truthful j svc' c hj hc e he hn hser

/-- A completion may be remembered. -/
theorem remember (hs : s.Coherent) (hi : s.services[i]? = some svc) {c : LoadedCatalog}
    (hc : svc.catalog.present = some c) (ctx : CompletionContext) :
    Coherent ⟨s.services, (completeWith s.cache i c ctx).2⟩ := by
  have ht := hs.truthful i svc c hi hc
  refine ⟨hs.numbered, hs.reached, fun e he svc' hj => ?_, fun j svc' c' hj hc' e he hn hser => ?_⟩
  · obtain he | ⟨hn, hser, -⟩ := ht.mem_completeWith he
    · exact hs.spent e he svc' hj
    · rw [hn] at hj
      obtain rfl := Option.some.inj (hi.symm.trans hj)
      exact hser ▸ hs.reached i svc c hi hc
  · obtain he | ⟨hn', -, hval⟩ := ht.mem_completeWith he
    · exact hs.truthful j svc' c' hj hc' e he hn hser
    · obtain rfl := hn.symm.trans hn'
      obtain rfl := Option.some.inj (hi.symm.trans hj)
      obtain rfl := Option.some.inj (hc.symm.trans hc')
      exact hval

end Session.Coherent

/-! ## One step -/

section Step

variable {s : Session} {i : Nat} {svc : Service}

/-- **A request to a service of a session** is answered as if the service were alone, and keeps the
invariant. -/
theorem Service.answer_eq_respond (hs : s.Coherent) (hi : s.services[i]? = some svc)
    (loader : Loader) (r : Request) :
    (svc.answer loader s.cache r).1 = (svc.respond loader r).1 ∧
      (svc.answer loader s.cache r).2.1 = (svc.respond loader r).2 ∧
      Session.Coherent
        ⟨s.services.set i (svc.respond loader r).2, (svc.answer loader s.cache r).2.2⟩ := by
  have hsame : s.services.set i svc = s.services := by
    obtain ⟨hlt, rfl⟩ := List.getElem?_eq_some_iff.mp hi
    exact List.set_getElem_self hlt
  have hget := hs.advance hi (svc.catalog.get_follows loader)
  cases r with
  | loaded | situation => exact ⟨rfl, rfl, by rw [Service.respond, hsame]; exact hs⟩
  | get | lookup | outline | hover => exact ⟨rfl, rfl, hget⟩
  | reload => exact ⟨rfl, rfl, (hs.advance hi (svc.catalog.reload_follows loader)).forget⟩
  | complete ctx =>
    cases hc : (svc.catalog.get loader).answer with
    | error e =>
      simp only [Service.answer, Service.complete, Service.respond, Service.reply, hc]
      exact ⟨trivial, trivial, hget⟩
    | ok c =>
      have hi' := List.getElem?_set_self
        (a := { svc with catalog := (svc.catalog.get loader).next })
        (List.getElem?_eq_some_iff.mp hi).1
      have hp := LazyCatalog.get_present hc
      obtain rfl := hs.numbered i svc hi
      simp only [Service.answer, Service.complete, Service.respond, Service.reply, hc,
        (hget.truthful _ _ c hi' hp).completeWith_fst ctx]
      exact ⟨trivial, trivial, hget.remember hi' hp ctx⟩

variable {w : World} {index : Nat} {step : Step} {limits : ShowLimits} {r : Request}

/-- **A step keeps the invariant.** -/
theorem World.step_coherent (h : w.session.Coherent) (step : Step) :
    (w.step step).2.session.Coherent := by
  cases step with
  | request i limits r =>
    simp only [World.step, Session.request]
    split
    next => exact h
    next svc hi =>
      obtain ⟨-, hsvc, hnext⟩ := Service.answer_eq_respond h hi ⟨w.files.read, limits⟩ r
      rw [← hsvc] at hnext
      exact hnext
  | edit edits =>
    simp only [World.step]
    split <;> exact h
  | clearCache => exact h.forget

/-- A step to a service gives what the service gives alone. -/
theorem World.step_to (h : w.session.Coherent) (hi : w.session.services[index]? = some svc)
    (hr : step.to? index = some (limits, r)) :
    (w.step step).1 = .reply r (svc.respond ⟨w.files.read, limits⟩ r).1 ∧
      (w.step step).2.session.services[index]? =
        some (svc.respond ⟨w.files.read, limits⟩ r).2 ∧
      (w.step step).2.files = w.files := by
  cases step with
  | request i limits' r' =>
    simp only [Step.to?, Option.ite_none_right_eq_some, Option.some.injEq, Prod.mk.injEq] at hr
    obtain ⟨rfl, rfl, rfl⟩ := hr
    obtain ⟨hreply, hsvc, -⟩ := Service.answer_eq_respond h hi ⟨w.files.read, limits'⟩ r'
    simp only [World.step, Session.request, hi, hreply, hsvc]
    exact ⟨trivial, List.getElem?_set_self (List.getElem?_eq_some_iff.mp hi).1, trivial⟩
  | edit | clearCache => cases hr

/-- A step that is not to a service leaves it alone. -/
theorem World.step_other (w : World) (hr : step.to? index = none) :
    (w.step step).2.session.services[index]? = w.session.services[index]? := by
  cases step with
  | request i limits r =>
    have hne : i ≠ index := fun hi => by simp [Step.to?, hi] at hr
    simp only [World.step, Session.request]
    split
    next => rfl
    next => exact List.getElem?_set_ne hne
  | edit edits =>
    simp only [World.step]
    split <;> rfl
  | clearCache => rfl

end Step

/-! ## Runs -/

/-- A world in which a service has come to the same point as in a world of its own. -/
structure World.Hosts (w : World) (index : Nat) (lone : LoneWorld) : Prop where
  coherent : w.session.Coherent
  service : w.session.services[index]? = some lone.service
  files : w.files = lone.files

namespace World.Hosts

variable {w : World} {index : Nat} {lone : LoneWorld} {s : Step}

theorem start (files : FileTree) (settings : List Settings) (index : Fin settings.length) :
    World.Hosts ⟨files, .start settings⟩ index ⟨files, .of index settings[index]⟩ :=
  ⟨.start settings, by simp [Session.start], rfl⟩

/-- A step of the service, or a change of the files, is a step of both worlds. -/
theorem step_of_concerns (h : w.Hosts index lone) (hs : s.concerns index) :
    (w.step s).1 = (lone.step s).1 ∧ (w.step s).2.Hosts index (lone.step s).2 := by
  have hcoh := World.step_coherent h.coherent s
  cases s with
  | request i limits r =>
    have hr : (Step.request i limits r).to? index = some (limits, r) := by
      simpa [Step.to?, Step.concerns] using hs
    obtain ⟨hreply, hsvc, hfiles⟩ := World.step_to h.coherent h.service hr
    rw [h.files] at hreply hsvc hfiles
    exact ⟨hreply, hcoh, hsvc, hfiles⟩
  | edit edits =>
    have hsvc : (w.step (.edit edits)).2.session.services[index]? = some lone.service :=
      (World.step_other w rfl).trans h.service
    rcases hedit : lone.files.editAll edits with ⟨_ | _, files⟩ <;>
      simp only [World.step, LoneWorld.step, h.files, hedit] at hcoh hsvc ⊢ <;>
      exact ⟨trivial, hcoh, hsvc, rfl⟩
  | clearCache => cases hs

/-- Any other step is one of the shared world only. -/
theorem step_of_not_concerns (h : w.Hosts index lone) (hs : s.concerns index = false) :
    (w.step s).2.Hosts index lone := by
  have hcoh := World.step_coherent h.coherent s
  cases s with
  | request i limits r =>
    have hr : (Step.request i limits r).to? index = none := by
      simpa [Step.to?, Step.concerns] using hs
    exact ⟨hcoh, (World.step_other w hr).trans h.service, h.files⟩
  | edit edits => cases hs
  | clearCache => exact ⟨hcoh, (World.step_other w rfl).trans h.service, h.files⟩

/-- **A shared run hosts the run of a service**, with the same replies. -/
theorem run (h : w.Hosts index lone) (steps : List Step) :
    w.repliesTo index steps = (lone.run (steps.filter (·.concerns index))).1 ∧
      (w.run steps).2.Hosts index (lone.run (steps.filter (·.concerns index))).2 := by
  induction steps generalizing w lone with
  | nil => exact ⟨rfl, h⟩
  | cons s steps ih =>
    cases hs : s.concerns index with
    | true =>
      obtain ⟨hreply, hnext⟩ := h.step_of_concerns hs
      obtain ⟨hreplies, hlast⟩ := ih hnext
      simp only [World.repliesTo] at hreplies
      simp only [World.repliesTo, World.run, LoneWorld.run, List.zip_cons_cons, List.filter_cons,
        hs, if_true, List.map_cons, hreply, hreplies]
      exact ⟨trivial, hlast⟩
    | false =>
      obtain ⟨hreplies, hlast⟩ := ih (h.step_of_not_concerns hs)
      simp only [World.repliesTo] at hreplies
      simp only [World.repliesTo, World.run, List.zip_cons_cons, List.filter_cons, hs,
        Bool.false_eq_true, if_false, hreplies]
      exact ⟨trivial, hlast⟩

end World.Hosts

/-- **Sharing and remembering cannot be seen.** In any run of any services, what a service says is
what it says in the run of its own steps and the changes of the files alone, without a cache; and
after the run its completions are those of its own catalog. -/
theorem World.replies_isolated (files : FileTree) (settings : List Settings)
    (index : Fin settings.length) (steps : List Step) :
    let own := LoneWorld.run ⟨files, .of index settings[index]⟩ (steps.filter (·.concerns index))
    let last := (World.run ⟨files, .start settings⟩ steps).2
    World.repliesTo ⟨files, .start settings⟩ index steps = own.1 ∧
      last.session.services[(index : Nat)]? = some own.2.service ∧ last.files = own.2.files ∧
      ∀ limits ctx,
        (last.session.request ⟨last.files.read, limits⟩ index (.complete ctx)).1.answer =
          ((own.2.service.catalog.get ⟨last.files.read, limits⟩).answer.mapError .load).map
            fun c => complete c.catalog ctx := by
  intro own last
  obtain ⟨hreplies, hlast⟩ := (World.Hosts.start files settings index).run steps
  refine ⟨hreplies, hlast.service, hlast.files, fun limits ctx => ?_⟩
  obtain ⟨hanswer, -⟩ := Service.answer_eq_respond hlast.coherent hlast.service
    ⟨last.files.read, limits⟩ (.complete ctx)
  simp only [Session.request, last, hlast.service, own] at hanswer ⊢
  rw [hanswer]
  simp only [Service.respond, Service.reply]
  split
  next e he => rw [he]; rfl
  next c hc => rw [hc]; rfl

end DiskLens
