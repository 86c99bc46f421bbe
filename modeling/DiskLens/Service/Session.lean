import DiskLens.Files.Tree
import DiskLens.Outline.ContentType
import DiskLens.Service.LazyCatalog
import DiskLens.Service.Settings

/-!
# Sessions

A session holds services, each with settings and a catalog of its own, and one cache of suggestions
for all of them. Every request but that for the situation needs the catalog of its service.

* `Request`, `Request.Answer`, `ServiceError`: what a service is asked and what it says.
* `Service.answer`: one request to one service.
* **`Session`**: the services and the cache; `Session.request` is one request to one of them.
* `Step`, **`World.run`**: requests mixed with changes of the files.
* `outlineEntries`, `completionBody`, `hoverBody`: the layouts of answers, wherever they are sent.
-/

namespace DiskLens

/-! ## Requests -/

/-- A request to a service. -/
inductive Request
  | loaded
  | get
  | reload
  | lookup (name : String)
  | outline (text contentType : String) (token : Option CancelToken)
  | situation (ctx : CompletionContext)
  | complete (ctx : CompletionContext)
  | hover (line : String) (cursor : Int)
deriving DecidableEq, Repr

/-- **What a request asks for.** -/
abbrev Request.Answer : Request → Type
  | .loaded => Bool
  | .get | .reload => Catalog
  | .lookup _ => Option Parameter
  | .outline .. => List Symbol
  | .situation _ => Situation
  | .complete _ => List Suggestion
  | .hover .. => Option String

/-- Why a request has no answer. -/
inductive ServiceError
  | load (e : LoadFailure)
  | contentType (e : UnknownContentType)
  | noService (index : Nat)
deriving DecidableEq, Repr

namespace ServiceError

/-- The message of the cause. -/
def message : ServiceError → String
  | load e => e.message
  | contentType e => e.message
  | noService index => "no service " ++ toString index

end ServiceError

/-- What a request gives and what it reports. -/
structure Reply (α : Type) where
  answer : Except ServiceError α
  events : List LogEvent

/-! ## Services -/

/-- **A service.** Its number tells it apart from the others in the cache. -/
structure Service where
  number : Nat
  settings : Settings
  catalog : LazyCatalog
deriving DecidableEq, Repr

namespace Service

/-- A service that nobody has asked. -/
def of (number : Nat) (settings : Settings) : Service := ⟨number, settings, .of settings.source⟩

/-- The reply to a request that needs the catalog: `use` answers it. -/
def reply {α : Type} (svc : Service) (r : CatalogReply)
    (use : LoadedCatalog → Except ServiceError α) : Reply α × Service :=
  let answer : Except ServiceError α := match r.answer with
    | .error e => .error (.load e)
    | .ok c => use c
  (⟨answer, r.events⟩, { svc with catalog := r.next })

/-- The reply to a completion request, and service and cache after it. -/
def complete (svc : Service) (cache : SuggestionCache) (r : CatalogReply)
    (ctx : CompletionContext) : Reply (List Suggestion) × Service × SuggestionCache :=
  let svc := { svc with catalog := r.next }
  match r.answer with
  | .error e => (⟨.error (.load e), r.events⟩, svc, cache)
  | .ok c =>
    let (items, cache) := completeWith cache svc.number c ctx
    (⟨.ok items, r.events⟩, svc, cache)

/-- **One request to a service**: the reply, and service and cache after it. A reload forgets all
suggestions, whether or not it succeeds. -/
def answer (loader : Loader) (svc : Service) (cache : SuggestionCache) :
    (r : Request) → Reply r.Answer × Service × SuggestionCache
  | .loaded => (⟨.ok svc.catalog.isLoaded, []⟩, svc, cache)
  | .get =>
    let (reply, svc) := svc.reply (svc.catalog.get loader) fun c => .ok c.catalog
    (reply, svc, cache)
  | .reload =>
    let (reply, svc) := svc.reply (svc.catalog.reload loader) fun c => .ok c.catalog
    (reply, svc, .empty)
  | .lookup name =>
    let (reply, svc) := svc.reply (svc.catalog.get loader) fun c => .ok (c.catalog.lookup name)
    (reply, svc, cache)
  | .outline text contentType token =>
    let (reply, svc) := svc.reply (svc.catalog.get loader) fun _ =>
      (outlineNamed text contentType token).mapError .contentType
    (reply, svc, cache)
  | .situation ctx => (⟨.ok (DiskLens.situation ctx), []⟩, svc, cache)
  | .complete ctx => svc.complete cache (svc.catalog.get loader) ctx
  | .hover line cursor =>
    let (reply, svc) := svc.reply (svc.catalog.get loader) fun c =>
      .ok (DiskLens.hover c.catalog svc.settings.wikiBase line cursor)
    (reply, svc, cache)

end Service

/-! ## Sessions -/

/-- **The services and their cache.** -/
structure Session where
  services : List Service
  cache : SuggestionCache
deriving Repr

namespace Session

/-- Services with these settings, and nothing remembered. -/
def start (settings : List Settings) : Session :=
  ⟨settings.mapIdx Service.of, .empty⟩

/-- **One request to a service of the session.** -/
def request (loader : Loader) (s : Session) (index : Nat) (r : Request) :
    Reply r.Answer × Session :=
  match s.services[index]? with
  | none => (⟨.error (.noService index), []⟩, s)
  | some svc =>
    let (reply, svc, cache) := svc.answer loader s.cache r
    (reply, ⟨s.services.set index svc, cache⟩)

/-- Nothing is remembered. -/
def clearCache (s : Session) : Session := { s with cache := .empty }

end Session

/-! ## Runs -/

/-- Files and a session that reads them. -/
structure World where
  files : FileTree
  session : Session
deriving Repr

/-- A step of a run. A request has the limits of its caller. -/
inductive Step
  | request (index : Nat) (limits : ShowLimits) (r : Request)
  | edit (edits : List FileEdit)
  | clearCache
deriving Repr

/-- What a step gives: the reply to a request, or that an edit failed, or nothing. -/
inductive StepReply
  | reply (r : Request) (reply : Reply r.Answer)
  | refused (e : PathError)
  | done

namespace World

/-- One step, and the world after it. -/
def step (w : World) : Step → StepReply × World
  | .request index limits r =>
    let (reply, session) := w.session.request ⟨w.files.read, limits⟩ index r
    (.reply r reply, { w with session })
  | .edit edits =>
    match w.files.editAll edits with
    | (.ok _, files) => (.done, { w with files })
    | (.error e, files) => (.refused e, { w with files })
  | .clearCache => (.done, { w with session := w.session.clearCache })

/-- **A run**: what its steps give, in order, and the world after it. -/
def run (w : World) : List Step → List StepReply × World
  | [] => ([], w)
  | s :: steps =>
    let (reply, next) := w.step s
    let (replies, last) := next.run steps
    (reply :: replies, last)

end World

/-! ## Answers as JSON -/

/-- The entries of an outline answer. -/
def outlineEntries (contentType : String) (symbols : List Symbol) : List (String × Json) :=
  [("content_type", .str contentType), ("symbols", .arr (symbols.map Symbol.record))]

/-- **The body of a completion answer.** -/
def completionBody (s : Situation) (items : List Suggestion) : Json :=
  .obj [("situation", .str s.name), ("items", .arr (items.map Suggestion.record))]

/-- **The body of a hover answer.** -/
def hoverBody (text : Option String) : Json := .obj [("hover", hoverRecord text)]

/-- What is said of a parameter that the catalog does not have. -/
def unknownParameter (name : String) : String := "Unknown parameter: " ++ name

end DiskLens
