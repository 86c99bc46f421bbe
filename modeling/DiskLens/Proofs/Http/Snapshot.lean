import DiskLens.Proofs.Http.Posts
import DiskLens.Proofs.Outline.Trees
import DiskLens.Proofs.Service.LifeCycle

/-!
# A server answers from one snapshot

A server loads its catalog for the first request that reaches it, and never again: what it says
later depends on the request and on what came of that load, and on nothing else. Only a load that is
stopped, by a value with too many levels, leaves no trace, and the next request tries again.

* `HttpRequest.decode`: what becomes of a request before the service is asked.
* **`Snapshot`**, **`HttpRequest.replyFrom`**: what came of a load, and the reply that it gives.
* `ServerWorld.run`: requests mixed with changes of the files.
* `Server.Hosts`: a server with its service; `Server.Hosts.call`: one call.
* `ServerWorld.run_of_knows`, `ServerWorld.run_of_stopped`: a run after the snapshot and before it.
* **`ServerWorld.answers_from_snapshot`**: every run.
* **`ServerWorld.replies_differ`**: a request that is made twice may get two replies.
-/

namespace DiskLens

/-! ## Requests -/

/-- **What becomes of a request before a service is asked**: it is a call, or it is answered at
once. -/
def HttpRequest.decode (r : HttpRequest) : Except HttpReply ApiCall :=
  match route r.method r.path with
  | .nowhere => .error (.detail 404 "Not Found")
  | .wrongMethod => .error (.detail 405 "Method Not Allowed")
  | .redirect => .error (.bare 307)
  | .page => .error (.bare 200)
  | .endpoint e => (decodeCall r.body e).mapError BodyError.reply

theorem HttpRequest.decode_of_call {r : HttpRequest} {e : Endpoint} {c : ApiCall}
    (hroute : route r.method r.path = .endpoint e) (hcall : decodeCall r.body e = .ok c) :
    r.decode = .ok c := by
  rw [decode, hroute]
  simp only [hcall, Except.mapError]

theorem HttpRequest.decode_health (body : String) :
    HttpRequest.decode ⟨"GET", "/api/health", body⟩ = .ok .health := by
  have hroute : route "GET" "/api/health" = .endpoint .health := by decide +kernel
  rw [decode, hroute]
  rfl

theorem Server.handle_eq (env : Environment) (loader : Loader) (s : Server) (r : HttpRequest) :
    s.handle env loader r = match r.decode with
      | .error reply => (reply, s)
      | .ok c => s.call env loader c := by
  unfold Server.handle HttpRequest.decode
  cases route r.method r.path with
  | nowhere | wrongMethod | redirect | page => rfl
  | endpoint e =>
    dsimp only
    cases decodeCall r.body e <;> rfl

/-! ## Snapshots -/

/-- **What came of loading a catalog**: the catalog, or the error for which its source was given
up. -/
abbrev Snapshot := Except LoadError Catalog

/-- The snapshot that a load gives; a load that was stopped gives none. -/
def Snapshot.ofLoad? : Except LoadFailure Catalog → Option Snapshot
  | .ok c => some (.ok c)
  | .error (.source e) => some (.error e)
  | .error _ => none

theorem Snapshot.ofLoad?_eq_some_iff {load : Except LoadFailure Catalog} {S : Snapshot} :
    ofLoad? load = some S ↔ load = S.mapError .source := by
  unfold ofLoad?
  split <;> cases S <;> simp_all [Except.mapError]

theorem Snapshot.ofLoad?_eq_none_iff {load : Except LoadFailure Catalog} :
    ofLoad? load = none ↔ ∃ f, load = .error f ∧ ∀ e, f ≠ .source e := by
  unfold ofLoad?
  split <;> simp_all

/-- The snapshot that a service would take. -/
def Settings.snapshot? (settings : Settings) (loader : Loader) : Option Snapshot :=
  Snapshot.ofLoad? (loadCatalog loader settings.source 0)

/-- A value with too many levels stops a load. -/
theorem Settings.snapshot?_of_tooDeep {settings : Settings} {loader : Loader}
    (h : loadParameters loader settings.source = .error .tooDeep) :
    settings.snapshot? loader = none := by
  simp [snapshot?, loadCatalog, h, Except.map, Snapshot.ofLoad?]

theorem Settings.generation_of_snapshot? {settings : Settings} {loader : Loader} {c : Catalog}
    (h : settings.snapshot? loader = some (.ok c)) : c.generation = 0 := by
  have hload := Snapshot.ofLoad?_eq_some_iff.mp h
  rw [loadCatalog] at hload
  cases hps : loadParameters loader settings.source with
  | error f => rw [hps] at hload; cases hload
  | ok ps => rw [hps] at hload; cases hload; rfl

namespace ApiCall

/-- **The reply to a call, told by a snapshot.** -/
def replyFrom (base : String) : Snapshot → ApiCall → HttpReply
  | .error e, health => .response 200 (degraded e)
  | .error e, _ => .detail 503 ("Parameter catalog unavailable: " ++ e.message)
  | .ok c, health => .response 200 (healthy c)
  | .ok _, outline text contentType =>
    match outlineNamed text.fill contentType.fill none with
    | .error _ => .detail 400 (UnknownContentType.messageFor (quotedWide contentType))
    | .ok symbols => outlined text contentType symbols
  | .ok c, completion ctx => .response 200 (completionBody (situation ctx) (complete c ctx))
  | .ok c, hover line cursor => .response 200 (hoverBody (DiskLens.hover c base line cursor))
  | .ok c, parameter name =>
    match c.lookup name with
    | some p => .response 200 p.record
    | none => .detail 404 (unknownParameter name)

end ApiCall

/-- **The reply to a request, told by a snapshot.** -/
def HttpRequest.replyFrom (base : String) (S : Snapshot) (r : HttpRequest) : HttpReply :=
  match r.decode with
  | .error reply => reply
  | .ok c => c.replyFrom base S

/-! ## What a snapshot tells -/

section Replies

variable {base : String} {c : Catalog}

theorem ApiCall.replyFrom_error (base : String) (e : LoadError) (call : ApiCall) :
    call.replyFrom base (.error e) =
      if call = .health then .response 200 (degraded e)
      else .detail 503 ("Parameter catalog unavailable: " ++ e.message) := by
  cases call <;> simp [replyFrom]

theorem outlined_cases (text contentType : WideText) (symbols : List Symbol) :
    (∃ f, ApiCall.outlined text contentType symbols = .failed f) ∨
      ∃ body, ApiCall.outlined text contentType symbols = .response 200 body := by
  unfold ApiCall.outlined
  dsimp only
  split
  · exact .inl ⟨_, rfl⟩
  · exact .inr ⟨_, rfl⟩

theorem HttpRequest.refusal_ne_unavailable {r : HttpRequest} {reply : HttpReply}
    (h : r.decode = .error reply) (body : Json) : reply ≠ .response 503 body := by
  unfold HttpRequest.decode at h
  split at h
  case h_5 e _ =>
    cases hcall : decodeCall r.body e with
    | ok call => rw [hcall] at h; cases h
    | error fault =>
      rw [hcall] at h
      obtain rfl := Except.error.inj h
      unfold BodyError.reply
      split
      · split <;> simp
      · simp [HttpReply.detail]
  all_goals
    obtain rfl := Except.error.inj h
    simp [HttpReply.detail]

theorem ApiCall.replyFrom_ok_ne_unavailable (base : String) (c : Catalog) (call : ApiCall)
    (body : Json) : call.replyFrom base (.ok c) ≠ .response 503 body := by
  cases call with
  | health | completion | hover => simp [replyFrom]
  | parameter name =>
    simp only [replyFrom]
    cases c.lookup name <;> simp [HttpReply.detail]
  | outline text contentType =>
    simp only [replyFrom]
    cases outlineNamed text.fill contentType.fill none with
    | error e => simp [HttpReply.detail]
    | ok symbols =>
      obtain ⟨f, h⟩ | ⟨body', h⟩ := outlined_cases text contentType symbols <;> simp [h]

theorem HttpRequest.replyFrom_ok_ne_unavailable (base : String) (c : Catalog) (r : HttpRequest)
    (body : Json) : r.replyFrom base (.ok c) ≠ .response 503 body := by
  unfold HttpRequest.replyFrom
  split
  next reply hreply => exact HttpRequest.refusal_ne_unavailable hreply body
  next call _ => exact ApiCall.replyFrom_ok_ne_unavailable base c call body

theorem outlineNamed_eq_error {name : String} (h : ∀ type : ContentType, name ≠ type.name)
    (text : String) (token : Option CancelToken) :
    outlineNamed text name token = .error ⟨name⟩ := by
  have hnone : ContentType.all.find? (·.name = name) = none := by
    rw [List.find?_eq_none]
    intro type _
    simpa using (h type).symm
  simp only [outlineNamed, ContentType.ofName, hnone]
  rfl

/-- An outline is refused exactly for an unknown content type. -/
theorem ApiCall.replyFrom_outline_iff (base : String) (c : Catalog) (text contentType : WideText) :
    (∃ body, (ApiCall.outline text contentType).replyFrom base (.ok c) = .response 400 body) ↔
      ∀ type : ContentType, contentType ≠ .ofString type.name := by
  constructor
  · rintro ⟨body, h⟩ type rfl
    simp only [replyFrom, WideText.fill_ofString, outlineNamed_name] at h
    obtain ⟨f, h'⟩ | ⟨body', h'⟩ := outlined_cases text (.ofString type.name)
      (DiskLens.outline text.fill type none) <;> rw [h'] at h <;> cases h
  · intro h
    have hname : ∀ type : ContentType, contentType.fill ≠ type.name := by
      intro type hfill
      exact h type ((WideText.fill_eq_iff (by cases type <;> decide)).mp hfill)
    simp only [replyFrom, outlineNamed_eq_error hname]
    exact ⟨_, rfl⟩

/-- A parameter is not found exactly if the catalog does not have its name. -/
theorem ApiCall.replyFrom_parameter_iff (base : String) (c : Catalog) (name : String) :
    (∃ body, (ApiCall.parameter name).replyFrom base (.ok c) = .response 404 body) ↔
      name ∉ c.names := by
  have hlookup : c.lookup name = none ↔ name ∉ c.names := by
    simp [Catalog.lookup, Catalog.names]
  rw [← hlookup]
  simp only [replyFrom]
  cases c.lookup name <;> simp [HttpReply.detail]

end Replies

/-! ## Runs -/

/-- Files and a server that reads them. -/
structure ServerWorld where
  files : FileTree
  server : Server

/-- A step of a run: a request, with the limits that it is handled under, or a change of the
files. -/
inductive ServerStep
  | request (limits : ShowLimits) (r : HttpRequest)
  | edit (edits : List FileEdit)

namespace ServerStep

/-- The request that a step makes. -/
def request? : ServerStep → Option HttpRequest
  | request _ r => some r
  | edit _ => none

end ServerStep

namespace ServerWorld

/-- One step: a request with the reply to it, if it is one, and the world after it. -/
def step (env : Environment) (w : ServerWorld) :
    ServerStep → List (HttpRequest × HttpReply) × ServerWorld
  | .request limits r =>
    let (reply, server) := w.server.handle env ⟨w.files.read, limits⟩ r
    ([(r, reply)], { w with server })
  | .edit edits => ([], { w with files := (w.files.editAll edits).2 })

/-- **A run**: its requests with the replies to them, in order, and the world after it. -/
def run (env : Environment) (w : ServerWorld) :
    List ServerStep → List (HttpRequest × HttpReply) × ServerWorld
  | [] => ([], w)
  | s :: steps =>
    let (now, next) := w.step env s
    let (later, last) := next.run env steps
    (now ++ later, last)

theorem run_append (env : Environment) (w : ServerWorld) (a b : List ServerStep) :
    w.run env (a ++ b) =
      ((w.run env a).1 ++ ((w.run env a).2.run env b).1, ((w.run env a).2.run env b).2) := by
  induction a generalizing w with
  | nil => rfl
  | cons s a ih => simp [run, ih]

/-- Every request gets one reply. -/
theorem map_fst_run (env : Environment) (w : ServerWorld) (steps : List ServerStep) :
    (w.run env steps).1.map (·.1) = steps.filterMap (·.request?) := by
  induction steps generalizing w with
  | nil => rfl
  | cons s steps ih =>
    simp only [run, List.map_append, ih]
    cases s <;> rfl

/-- All requests so far that reached a handler had their loads stopped. -/
def Stopped (env : Environment) (settings : Settings) (w : ServerWorld)
    (steps : List ServerStep) : Prop :=
  ∀ a limits r c, a ++ [.request limits r] <+: steps → r.decode = .ok c →
    settings.snapshot? ⟨(w.run env a).2.files.read, limits⟩ = none

/-- **The snapshot of a run**: `r` is the first request that reaches a handler and whose load is not
stopped, and the load gives `S`. -/
structure TakenAt (env : Environment) (settings : Settings) (w : ServerWorld)
    (steps past : List ServerStep) (limits : ShowLimits) (r : HttpRequest) (rest : List ServerStep)
    (S : Snapshot) : Prop where
  steps_eq : steps = past ++ .request limits r :: rest
  stopped : w.Stopped env settings past
  decoded : ∃ c, r.decode = .ok c
  snapshot : settings.snapshot? ⟨(w.run env past).2.files.read, limits⟩ = some S

end ServerWorld

/-! ## One call -/

namespace LazyCatalog

/-- The catalog on demand has come to a snapshot. -/
def Knows (l : LazyCatalog) : Snapshot → Prop
  | .ok c => ∃ serial, l.present = some ⟨serial, c⟩
  | .error e => l.present = none ∧ l.fault = some e

variable {l : LazyCatalog} {loader : Loader} {S : Snapshot}

/-- What is known is handed out, and stays. -/
theorem get_of_knows (h : l.Knows S) (loader : Loader) :
    (l.get loader).answer.map (·.catalog) = S.mapError .source ∧ (l.get loader).next = l := by
  cases S with
  | ok c =>
    obtain ⟨serial, hpresent⟩ := h
    simp [get, hpresent, Except.map, Except.mapError]
  | error e =>
    obtain ⟨hpresent, hfault⟩ := h
    simp [get, load, hpresent, hfault, Except.map, Except.mapError]

/-- The first load gives what is known from then on, unless it is stopped. -/
theorem get_of (source : CatalogSource) (loader : Loader) :
    ((of source).get loader).answer.map (·.catalog) = loadCatalog loader source 0 ∧
      (∀ S, Snapshot.ofLoad? (loadCatalog loader source 0) = some S →
        ((of source).get loader).next.Knows S) ∧
      (Snapshot.ofLoad? (loadCatalog loader source 0) = none →
        ((of source).get loader).next = of source) := by
  have hget : (of source).get loader = (of source).load loader := rfl
  rw [hget]
  obtain ⟨e, he, -⟩ | ⟨-, c, hc, h⟩ | ⟨-, e, he, h⟩ | ⟨-, e, hne, he, h⟩ :=
    (of source).load_cases loader
  · cases he
  · replace hc : loadCatalog loader source 0 = .ok c := hc
    rw [h, hc]
    refine ⟨rfl, fun S hS => ?_, fun hnone => nomatch hnone⟩
    cases hS
    exact ⟨_, rfl⟩
  · replace he : loadCatalog loader source 0 = .error (.source e) := he
    rw [h, he]
    refine ⟨rfl, fun S hS => ?_, fun hnone => nomatch hnone⟩
    cases hS
    exact ⟨rfl, rfl⟩
  · replace he : loadCatalog loader source 0 = .error e := he
    rw [h, he]
    refine ⟨rfl, fun S hS => ?_, fun _ => rfl⟩
    cases e with
    | source e => exact absurd rfl (hne e)
    | nullByte | blankSource | tooDeep => cases hS

end LazyCatalog

namespace ApiCall

variable {svc : Service} {loader : Loader} {c : ApiCall}

/-- Every call needs the catalog and does not ask for a new one. -/
theorem respond_snd (svc : Service) (loader : Loader) (c : ApiCall) :
    (svc.respond loader c.request).2 = { svc with catalog := (svc.catalog.get loader).next } := by
  cases c <;> rfl

/-- A call is answered from the snapshot that the service has. -/
theorem reply_of_snapshot {S : Snapshot}
    (h : (svc.catalog.get loader).answer.map (·.catalog) = S.mapError .source) :
    c.reply (svc.respond loader c.request).1.answer = c.replyFrom svc.settings.wikiBase S := by
  cases hanswer : (svc.catalog.get loader).answer with
  | error f =>
    rw [hanswer] at h
    cases S with
    | ok found => cases h
    | error e =>
      cases h
      cases c <;> simp only [request, Service.respond, Service.reply, hanswer] <;> rfl
  | ok found =>
    rw [hanswer] at h
    cases S with
    | error e => cases h
    | ok known =>
      cases h
      cases c with
      | health | completion | hover =>
        simp only [request, Service.respond, Service.reply, hanswer]
        rfl
      | parameter name =>
        simp only [request, Service.respond, Service.reply, hanswer, replyFrom]
        cases found.catalog.lookup name <;> rfl
      | outline text contentType =>
        simp only [request, Service.respond, Service.reply, hanswer, replyFrom]
        cases outlineNamed text.fill contentType.fill none <;> rfl

/-- A call whose load is stopped fails for the same reason. -/
theorem reply_of_stopped {f : LoadFailure} (hf : ∀ e, f ≠ .source e)
    (h : (svc.catalog.get loader).answer.map (·.catalog) = .error f) :
    c.reply (svc.respond loader c.request).1.answer = .failed (.service (.load f)) := by
  cases hanswer : (svc.catalog.get loader).answer with
  | ok found =>
    rw [hanswer] at h
    cases h
  | error f' =>
    rw [hanswer] at h
    cases h
    cases f with
    | source e => exact absurd rfl (hf e)
    | nullByte | blankSource | tooDeep =>
      cases c <;> simp only [request, Service.respond, Service.reply, hanswer] <;> rfl

end ApiCall

namespace Server

/-- **The server has this service**, or makes it when it is first asked. -/
def Hosts (s : Server) (env : Environment) (svc : Service) : Prop :=
  ∃ session, s.ensure env = .ok session ∧ session.Coherent ∧ session.services[0]? = some svc

variable {env : Environment} {s : Server} {svc : Service}

theorem hosts_start {settings : Settings} (henv : Settings.ofEnvironment env = .ok settings) :
    start.Hosts env (.of 0 settings) :=
  ⟨.start [settings], by rw [ensure, start, henv]; rfl, .start [settings], rfl⟩

/-- **One call** is answered as if the service were alone. -/
theorem Hosts.call (h : s.Hosts env svc) (loader : Loader) (c : ApiCall) :
    (s.call env loader c).1 = c.reply (svc.respond loader c.request).1.answer ∧
      (s.call env loader c).2.Hosts env (svc.respond loader c.request).2 := by
  obtain ⟨session, hensure, hcoherent, hservice⟩ := h
  obtain ⟨hreply, hnext, hkeeps⟩ := Service.answer_eq_respond hcoherent hservice loader c.request
  simp only [Server.call, hensure, Session.request, hservice, hreply, hnext]
  refine ⟨trivial, _, rfl, hkeeps, ?_⟩
  exact List.getElem?_set_self (List.getElem?_eq_some_iff.mp hservice).1

end Server

/-! ## Along a run -/

/-- An environment names a file or leaves the built-in parameters. -/
theorem Settings.source_ne_blank {env : Environment} {settings : Settings}
    (henv : Settings.ofEnvironment env = .ok settings) : settings.source ≠ .blank := by
  unfold Settings.ofEnvironment at henv
  by_cases hunset : env.catalog = ""
  · rw [if_pos hunset] at henv
    obtain rfl := Except.ok.inj henv
    simp [standard]
  · rw [if_neg hunset] at henv
    cases hpath : expandHome env (Path.ofText env.catalog) with
    | error e =>
      rw [hpath] at henv
      cases henv
    | ok path =>
      rw [hpath] at henv
      obtain rfl := Except.ok.inj henv
      simp

/-- What stops a load: a value with too many levels, or a NUL in the path. -/
theorem Settings.load_stopped {env : Environment} {settings : Settings}
    (henv : Settings.ofEnvironment env = .ok settings) {loader : Loader} {f : LoadFailure}
    (hload : loadCatalog loader settings.source 0 = .error f) (hf : ∀ e, f ≠ .source e) :
    f = .tooDeep ∨ f = .nullByte := by
  have hps : loadParameters loader settings.source = .error f := by
    rw [loadCatalog] at hload
    cases hps : loadParameters loader settings.source with
    | ok ps => rw [hps] at hload; cases hload
    | error f' => rw [hps] at hload; cases hload; rfl
  cases hsource : settings.source with
  | blank => exact absurd hsource (source_ne_blank henv)
  | builtIn => rw [hsource] at hps; cases hps
  | file path =>
    rw [hsource] at hps
    obtain ⟨e, rfl⟩ | h | h := loadParameters_file_error hps
    · exact absurd rfl (hf e)
    · exact .inl h
    · exact .inr h.1

namespace ServerWorld

variable {env : Environment} {settings : Settings} {w : ServerWorld} {S : Snapshot}

section Knows

variable {svc : Service}

theorem step_of_knows (h : w.server.Hosts env svc) (hknows : svc.catalog.Knows S)
    (s : ServerStep) :
    (w.step env s).1 = s.request?.toList.map (fun r => (r, r.replyFrom svc.settings.wikiBase S)) ∧
      (w.step env s).2.server.Hosts env svc := by
  cases s with
  | edit edits => exact ⟨rfl, h⟩
  | request limits r =>
    obtain ⟨hanswer, hnext⟩ := LazyCatalog.get_of_knows hknows ⟨w.files.read, limits⟩
    simp only [step, Server.handle_eq, ServerStep.request?, Option.toList_some, List.map_singleton,
      HttpRequest.replyFrom]
    cases r.decode with
    | error reply => exact ⟨rfl, h⟩
    | ok c =>
      obtain ⟨hreply, hhosts⟩ := h.call ⟨w.files.read, limits⟩ c
      -- the service has what it needs, so the call leaves it as it is
      rw [ApiCall.respond_snd, hnext] at hhosts
      rw [hreply, ApiCall.reply_of_snapshot hanswer]
      exact ⟨rfl, hhosts⟩

/-- **A run after the snapshot**: all replies are told by it. -/
theorem run_of_knows (h : w.server.Hosts env svc) (hknows : svc.catalog.Knows S)
    (steps : List ServerStep) :
    (w.run env steps).1 =
      (steps.filterMap (·.request?)).map fun r => (r, r.replyFrom svc.settings.wikiBase S) := by
  induction steps generalizing w with
  | nil => rfl
  | cons s steps ih =>
    obtain ⟨hnow, hnext⟩ := step_of_knows h hknows s
    simp only [run, ih hnext, hnow]
    cases s <;> rfl

end Knows

/-- The request that takes the snapshot. -/
theorem step_of_snapshot (h : w.server.Hosts env (.of 0 settings)) {limits : ShowLimits}
    {r : HttpRequest} {c : ApiCall} (hcall : r.decode = .ok c)
    (hS : settings.snapshot? ⟨w.files.read, limits⟩ = some S) :
    (w.step env (.request limits r)).1 = [(r, r.replyFrom settings.wikiBase S)] ∧
      ∃ svc, svc.settings = settings ∧ svc.catalog.Knows S ∧
        (w.step env (.request limits r)).2.server.Hosts env svc := by
  obtain ⟨hanswer, hknows, -⟩ := LazyCatalog.get_of settings.source ⟨w.files.read, limits⟩
  obtain ⟨hreply, hhosts⟩ := h.call ⟨w.files.read, limits⟩ c
  rw [Snapshot.ofLoad?_eq_some_iff.mp hS] at hanswer
  rw [ApiCall.respond_snd] at hhosts
  simp only [step, Server.handle_eq, HttpRequest.replyFrom, hcall]
  refine ⟨?_, _, rfl, hknows S hS, hhosts⟩
  rw [hreply, ApiCall.reply_of_snapshot hanswer]
  rfl

section Stopped

theorem stopped_nil : w.Stopped env settings [] := by
  intro a limits r c ha
  exact absurd (List.prefix_nil.mp ha) (by simp)

theorem stopped_snoc {steps : List ServerStep} {s : ServerStep} :
    w.Stopped env settings (steps ++ [s]) ↔ w.Stopped env settings steps ∧
      ∀ limits r c, s = .request limits r → r.decode = .ok c →
        settings.snapshot? ⟨(w.run env steps).2.files.read, limits⟩ = none := by
  constructor
  · intro h
    refine ⟨fun a limits r c ha => h a limits r c (ha.trans (List.prefix_append _ _)), ?_⟩
    rintro limits r c rfl hcall
    exact h steps limits r c List.prefix_rfl hcall
  · rintro ⟨hpast, hlast⟩ a limits r c ha hcall
    obtain hall | ha := List.prefix_concat_iff.mp ha
    · obtain ⟨rfl, hs⟩ := List.append_inj' hall rfl
      exact hlast limits r c (List.cons.inj hs).1.symm hcall
    · exact hpast a limits r c ha hcall

/-- The reply while loads are stopped: a call fails, and anything else is refused as ever. -/
def ReplyStopped (x : HttpRequest × HttpReply) : Prop :=
  x.1.decode = .error x.2 ∨ ∃ c f, x.1.decode = .ok c ∧ (f = .tooDeep ∨ f = .nullByte) ∧
    x.2 = .failed (.service (.load f))

theorem ReplyStopped.ne_unavailable {x : HttpRequest × HttpReply} (h : ReplyStopped x)
    (body : Json) : x.2 ≠ .response 503 body := by
  obtain h | ⟨c, f, -, -, h⟩ := h
  · exact HttpRequest.refusal_ne_unavailable h body
  · simp [h]

theorem step_of_stopped (henv : Settings.ofEnvironment env = .ok settings)
    (h : w.server.Hosts env (.of 0 settings)) {s : ServerStep}
    (hstop : ∀ limits r c, s = .request limits r → r.decode = .ok c →
      settings.snapshot? ⟨w.files.read, limits⟩ = none) :
    (∀ x ∈ (w.step env s).1, ReplyStopped x) ∧
      (w.step env s).2.server.Hosts env (.of 0 settings) := by
  cases s with
  | edit edits => exact ⟨fun x hx => (nomatch hx), h⟩
  | request limits r =>
    simp only [step, Server.handle_eq, List.mem_singleton, forall_eq]
    cases hdecode : r.decode with
    | error reply => exact ⟨.inl hdecode, h⟩
    | ok c =>
      have hnone := hstop limits r c rfl hdecode
      obtain ⟨f, hload, hf⟩ := Snapshot.ofLoad?_eq_none_iff.mp hnone
      obtain ⟨hanswer, -, hnext⟩ := LazyCatalog.get_of settings.source ⟨w.files.read, limits⟩
      obtain ⟨hreply, hhosts⟩ := h.call ⟨w.files.read, limits⟩ c
      rw [hload] at hanswer
      rw [ApiCall.respond_snd] at hhosts
      refine ⟨.inr ⟨c, f, hdecode, Settings.load_stopped henv hload hf, ?_⟩, ?_⟩
      · rw [hreply, ApiCall.reply_of_stopped hf hanswer]
      · simpa [Service.of, hnext hnone] using hhosts

/-- **A run before the snapshot**: no load leaves a trace. -/
theorem run_of_stopped (henv : Settings.ofEnvironment env = .ok settings)
    (h : w.server.Hosts env (.of 0 settings)) {steps : List ServerStep}
    (hstop : w.Stopped env settings steps) :
    (∀ x ∈ (w.run env steps).1, ReplyStopped x) ∧
      (w.run env steps).2.server.Hosts env (.of 0 settings) := by
  induction steps using List.reverseRecOn with
  | nil => exact ⟨fun x hx => (nomatch hx), h⟩
  | append_singleton steps s ih =>
    obtain ⟨hpast, hlast⟩ := stopped_snoc.mp hstop
    obtain ⟨hreplies, hhosts⟩ := ih hpast
    obtain ⟨hnow, hnext⟩ := step_of_stopped henv hhosts hlast
    rw [run_append]
    simp only [run, List.append_nil, List.mem_append]
    exact ⟨fun x hx => hx.elim (hreplies x) (hnow x), hnext⟩

/-- A run takes a snapshot, or all its loads are stopped. -/
theorem stopped_or_takenAt (env : Environment) (settings : Settings) (w : ServerWorld)
    (steps : List ServerStep) :
    w.Stopped env settings steps ∨
      ∃ past limits r rest S, w.TakenAt env settings steps past limits r rest S := by
  -- along the end of the run: the first step that takes a snapshot is the last of some prefix
  induction steps using List.reverseRecOn with
  | nil => exact .inl stopped_nil
  | append_singleton steps s ih =>
    obtain hstop | ⟨past, limits, r, rest, S, htaken⟩ := ih
    · by_cases hlast : ∀ limits r c, s = .request limits r → r.decode = .ok c →
          settings.snapshot? ⟨(w.run env steps).2.files.read, limits⟩ = none
      · exact .inl (stopped_snoc.mpr ⟨hstop, hlast⟩)
      · push Not at hlast
        obtain ⟨limits, r, c, rfl, hcall, hsome⟩ := hlast
        obtain ⟨S, hS⟩ := Option.ne_none_iff_exists'.mp hsome
        exact .inr ⟨steps, limits, r, [], S, rfl, hstop, ⟨c, hcall⟩, hS⟩
    · refine .inr ⟨past, limits, r, rest ++ [s], S, ?_, htaken.stopped, htaken.decoded,
        htaken.snapshot⟩
      rw [htaken.steps_eq, List.append_assoc, List.cons_append]

end Stopped

/-- From the snapshot on, whatever follows is told by it. -/
theorem TakenAt.run_eq (henv : Settings.ofEnvironment env = .ok settings)
    (h : w.server.Hosts env (.of 0 settings)) {steps past rest : List ServerStep}
    {limits : ShowLimits} {r : HttpRequest}
    (htaken : w.TakenAt env settings steps past limits r rest S) (later : List ServerStep) :
    (((w.run env past).2.step env (.request limits r)).2.run env later).1 =
        (later.filterMap (·.request?)).map (fun q => (q, q.replyFrom settings.wikiBase S)) ∧
      ((w.run env past).2.run env (.request limits r :: later)).1 =
        (r :: later.filterMap (·.request?)).map fun q => (q, q.replyFrom settings.wikiBase S) := by
  obtain ⟨-, hhosts⟩ := run_of_stopped henv h htaken.stopped
  obtain ⟨c, hcall⟩ := htaken.decoded
  obtain ⟨hnow, svc, rfl, hknows, hnext⟩ := step_of_snapshot hhosts hcall htaken.snapshot
  have hlater := run_of_knows hnext hknows later
  refine ⟨hlater, ?_⟩
  simp only [run, hnow, hlater]
  rfl

/-- **A server answers from one snapshot.** Take any run of a fresh server, in an environment with
proper settings. Every request gets one reply. Either all loads are stopped, or there is a first
request that reaches a handler and whose load is not, and this load gives the snapshot `S`. Before
it, a request that reaches a handler fails, and any other is refused as ever. From it on

* every reply is told by `S` and its request;
* if `S` is an error, all calls get this error, with status 503 or as the state of health;
* if `S` is a catalog, it is of generation 0, nothing gets status 503, outlines are refused exactly
  for unknown content types, and parameters are not found exactly if the catalog has not their
  names;
* requests in another order, with whatever changes of the files in between, get the same
  replies. -/
theorem answers_from_snapshot {env : Environment} {settings : Settings}
    (henv : Settings.ofEnvironment env = .ok settings) (files : FileTree)
    (steps : List ServerStep) :
    let start : ServerWorld := ⟨files, .start⟩
    (start.run env steps).1.map (·.1) = steps.filterMap (·.request?) ∧
    (start.Stopped env settings steps ∧ (∀ x ∈ (start.run env steps).1, ReplyStopped x) ∨
      ∃ past limits r rest S, start.TakenAt env settings steps past limits r rest S) ∧
    ∀ past limits r rest S, start.TakenAt env settings steps past limits r rest S →
      let early := (start.run env past).1
      let now := (start.run env past).2
      let late := (r :: rest.filterMap (·.request?)).map fun q =>
        (q, q.replyFrom settings.wikiBase S)
      (start.run env steps).1 = early ++ late ∧
      (∀ x ∈ early, ReplyStopped x) ∧
      (∀ e, S = .error e → ∀ x ∈ late, ∀ call, x.1.decode = .ok call →
        x.2 = if call = .health then .response 200 (ApiCall.degraded e)
          else .detail 503 ("Parameter catalog unavailable: " ++ e.message)) ∧
      (∀ c, S = .ok c → c.generation = 0 ∧
        (∀ x ∈ early ++ late, ∀ body, x.2 ≠ .response 503 body) ∧
        ∀ x ∈ late,
          (∀ text contentType, x.1.decode = .ok (.outline text contentType) →
            ((∃ body, x.2 = .response 400 body) ↔
              ∀ type : ContentType, contentType ≠ .ofString type.name)) ∧
          ∀ name, x.1.decode = .ok (.parameter name) →
            ((∃ body, x.2 = .response 404 body) ↔ name ∉ c.names)) ∧
      ∀ later : List ServerStep,
        (later.filterMap (·.request?)).Perm (rest.filterMap (·.request?)) →
        let next := (now.step env (.request limits r)).2
        (next.run env later).1.Perm (next.run env rest).1 := by
  intro start
  have hhosts : start.server.Hosts env (.of 0 settings) := Server.hosts_start henv
  refine ⟨map_fst_run env start steps, ?_, ?_⟩
  · obtain hstop | htaken := stopped_or_takenAt env settings start steps
    · exact .inl ⟨hstop, (run_of_stopped henv hhosts hstop).1⟩
    · exact .inr htaken
  · intro past limits r rest S htaken early now late
    have hearly := (run_of_stopped henv hhosts htaken.stopped).1
    have hlate : ∀ x ∈ late, x.2 = x.1.replyFrom settings.wikiBase S := by
      intro x hx
      obtain ⟨q, -, rfl⟩ := List.mem_map.mp hx
      rfl
    have hcalls : ∀ x ∈ late, ∀ call, x.1.decode = .ok call →
        x.2 = call.replyFrom settings.wikiBase S := by
      intro x hx call hcall
      rw [hlate x hx, HttpRequest.replyFrom, hcall]
    refine ⟨?_, hearly, ?_, ?_, ?_⟩
    · rw [htaken.steps_eq, run_append]
      exact congrArg _ (htaken.run_eq henv hhosts rest).2
    · rintro e rfl x hx call hcall
      rw [hcalls x hx call hcall, ApiCall.replyFrom_error]
    · rintro c rfl
      refine ⟨?_, fun x hx body => ?_, fun x hx => ⟨?_, ?_⟩⟩
      · exact Settings.generation_of_snapshot? htaken.snapshot
      · obtain hx | hx := List.mem_append.mp hx
        · exact (hearly x hx).ne_unavailable body
        · rw [hlate x hx]
          exact HttpRequest.replyFrom_ok_ne_unavailable settings.wikiBase c x.1 body
      · intro text contentType hcall
        rw [hcalls x hx _ hcall]
        exact ApiCall.replyFrom_outline_iff ..
      · intro name hcall
        rw [hcalls x hx _ hcall]
        exact ApiCall.replyFrom_parameter_iff ..
    · intro later hperm next
      rw [(htaken.run_eq henv hhosts later).1, (htaken.run_eq henv hhosts rest).1]
      exact hperm.map _

/-- A file that comes too late: the server has given its source up for good. -/
theorem answers_from_snapshot_of_missing_file :
    let path : Path := ⟨.relative, ["c.json"]⟩
    let env : Environment := ⟨"c.json", "", "", []⟩
    let health : HttpRequest := ⟨"GET", "/api/health", ""⟩
    let parameter : HttpRequest := ⟨"GET", "/api/parameters/Mdisk", ""⟩
    let steps : List ServerStep := [.request .ample ⟨"GET", "/api", ""⟩, .request .narrow health,
      .edit [⟨path, some (Utf8.encode ['{', '}'])⟩], .request .ample parameter]
    let e : LoadError := .unreadable path .notFound
    Settings.ofEnvironment env = .ok ⟨.file path, defaultWikiBase⟩ ∧
      (parameter, .detail 503 ("Parameter catalog unavailable: " ++ e.message)) ∈
        (run env ⟨.empty, .start⟩ steps).1 := by
  intro path env health parameter steps e
  have henv : Settings.ofEnvironment env = .ok ⟨.file path, defaultWikiBase⟩ := by decide +kernel
  have hlost : route "GET" "/api" = .nowhere := by decide +kernel
  have hhealth : health.decode = .ok .health := HttpRequest.decode_health ""
  have hparameter : parameter.decode = .ok (.parameter "Mdisk") := by
    rw [HttpRequest.decode,
      show route parameter.method parameter.path = .endpoint (.parameter "Mdisk") by decide +kernel]
    rfl
  have hmissing : Settings.snapshot? ⟨.file path, defaultWikiBase⟩
      ⟨FileTree.empty.read, .narrow⟩ = some (.error e) := by
    rw [Settings.snapshot?, loadCatalog, World.loadParameters_missing]
    rfl
  have hstopped : Stopped env ⟨.file path, defaultWikiBase⟩ ⟨.empty, .start⟩
      ([] ++ [.request .ample ⟨"GET", "/api", ""⟩]) := by
    refine stopped_snoc.mpr ⟨stopped_nil, ?_⟩
    rintro limits r c hr hcall
    cases hr
    simp [HttpRequest.decode, hlost] at hcall
  obtain ⟨hall, -, herror, -, -⟩ := (answers_from_snapshot henv .empty steps).2.2
    _ .narrow health (steps.drop 2) (.error e) ⟨rfl, hstopped, ⟨_, hhealth⟩, hmissing⟩
  have hasked : parameter ∈ health :: (steps.drop 2).filterMap (·.request?) := by
    simp [steps, ServerStep.request?]
  have hreply := herror e rfl _ (List.mem_map.mpr ⟨parameter, hasked, rfl⟩) _ hparameter
  rw [if_neg (by simp)] at hreply
  refine ⟨henv, ?_⟩
  rw [hall]
  exact List.mem_append_right _ (List.mem_map.mpr ⟨parameter, hasked, Prod.ext rfl hreply⟩)

/-- After a load that was stopped, the same request takes the snapshot. -/
theorem run_stopped_then_taken (henv : Settings.ofEnvironment env = .ok settings) {files : FileTree}
    {edits : List FileEdit} {limits : ShowLimits} {r : HttpRequest} {c : ApiCall}
    (hcall : r.decode = .ok c) (hstop : settings.snapshot? ⟨files.read, limits⟩ = none)
    (hS : settings.snapshot? ⟨(files.editAll edits).2.read, limits⟩ = some S) :
    ∃ f, (run env ⟨files, .start⟩ [.request limits r, .edit edits, .request limits r]).1 =
      [(r, .failed (.service (.load f))), (r, r.replyFrom settings.wikiBase S)] := by
  let start : ServerWorld := ⟨files, .start⟩
  let edited : ServerWorld :=
    ⟨(files.editAll edits).2, (start.step env (.request limits r)).2.server⟩
  obtain ⟨hfirst, hhosts⟩ := step_of_stopped (w := start) (s := .request limits r) henv
    (Server.hosts_start henv) fun _ _ _ hs _ => by cases hs; exact hstop
  obtain ⟨hsecond, -⟩ := step_of_snapshot (w := edited) hhosts hcall hS
  obtain hrefused | ⟨-, f, -, -, hfailed⟩ := hfirst _ (List.mem_singleton_self _)
  · cases hrefused.symm.trans hcall
  · -- the change of the files gives no reply and leaves the server alone
    refine ⟨f, ?_⟩
    calc (start.run env [.request limits r, .edit edits, .request limits r]).1
        = (start.step env (.request limits r)).1 ++ (edited.step env (.request limits r)).1 := rfl
      _ = _ := by
        rw [hsecond]
        exact congrArg (fun reply => [(r, reply), _]) hfailed

theorem editAll_nestedFiles (bytes : Bytes) :
    (World.nestedFiles.editAll [⟨⟨.relative, ["c.json"]⟩, some bytes⟩]).2 =
      ⟨[(["c.json"], bytes)], []⟩ := by
  have hparent : Path.parent ⟨.relative, ["c.json"]⟩ = ⟨.relative, []⟩ := rfl
  have hproper : (Path.mk .relative []).text.contains '\x00' = false := by
    have htext : (Path.mk .relative []).text = "." := by decide +kernel
    simp [htext]
  rw [World.nestedFiles]
  -- the content that is written over is long
  generalize Utf8.encode (Json.nestedName 1014) = bytes'
  simp only [FileTree.editAll, List.forM, FileEdit.change, TreeChange.write, hparent,
    List.length_singleton, TreeChange.needDirectories, TreeChange.needDirectory,
    TreeChange.makeDirectory, Path.attempt, World.proper_path, hproper]
  rfl

/-- **A request that is made twice may get two replies**: they are not told by one snapshot. -/
theorem replies_differ :
    let path : Path := ⟨.relative, ["c.json"]⟩
    let env : Environment := ⟨"c.json", "", "", []⟩
    let health : HttpRequest := ⟨"GET", "/api/health", ""⟩
    let steps : List ServerStep := [.request .narrow health,
      .edit [⟨path, some (Utf8.encode ['{', '}'])⟩], .request .narrow health]
    Settings.ofEnvironment env = .ok ⟨.file path, defaultWikiBase⟩ ∧
      ¬ ∃ (S : Snapshot) (told : Snapshot → HttpRequest → HttpReply),
        ∀ x ∈ (run env ⟨World.nestedFiles, .start⟩ steps).1, x.2 = told S x.1 := by
  intro path env health steps
  have henv : Settings.ofEnvironment env = .ok ⟨.file path, defaultWikiBase⟩ := by decide +kernel
  have hhealth : health.decode = .ok .health := HttpRequest.decode_health ""
  have hstop : Settings.snapshot? ⟨.file path, defaultWikiBase⟩
      ⟨World.nestedFiles.read, .narrow⟩ = none :=
    Settings.snapshot?_of_tooDeep (World.loadParameters_nestedFiles (by decide))
  have hread : ((World.nestedFiles.editAll [⟨path, some (Utf8.encode ['{', '}'])⟩]).2.read path) =
      .ok (Utf8.encode ['{', '}']) := by
    rw [editAll_nestedFiles, FileTree.read_eq _ World.proper_path]
    rfl
  have hS : Settings.snapshot? ⟨.file path, defaultWikiBase⟩
      ⟨(World.nestedFiles.editAll [⟨path, some (Utf8.encode ['{', '}'])⟩]).2.read, .narrow⟩ =
        some (.ok ⟨[], 0⟩) := by
    simp only [Settings.snapshot?, loadCatalog, loadParameters, hread]
    decide +kernel
  obtain ⟨f, hrun⟩ := run_stopped_then_taken henv hhealth hstop hS
  refine ⟨henv, ?_⟩
  rintro ⟨S, told, htold⟩
  rw [show (run env ⟨World.nestedFiles, .start⟩ steps).1 = _ from hrun] at htold
  have hfirst := htold _ List.mem_cons_self
  have hsecond := htold _ (List.mem_cons_of_mem _ List.mem_cons_self)
  have hreply : health.replyFrom defaultWikiBase (.ok ⟨[], 0⟩) =
      .response 200 (ApiCall.healthy ⟨[], 0⟩) := by
    rw [HttpRequest.replyFrom, hhealth]
    rfl
  cases hfirst.trans (hsecond.symm.trans hreply)

end ServerWorld

end DiskLens
