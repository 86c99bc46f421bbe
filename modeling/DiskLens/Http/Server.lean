import DiskLens.Http.Report
import DiskLens.Service.Session

/-!
# The HTTP API

A server has one service, made from the environment when the first well-formed request comes in. A
request that is refused by its path, its method or its body never reaches the service.

* `HttpRequest`, `HttpReply`: requests and what is sent back.
* `ApiCall.request`, `ApiCall.reply`: a call as a request to a service, and the reply to it.
* **`Server.handle`**: one request.
-/

namespace DiskLens

/-- A request. The path is decoded. -/
structure HttpRequest where
  method : String
  path : String
  body : String
deriving DecidableEq, Repr

/-- Why nothing can be sent back. -/
inductive ServerFailure
  | settings (e : SettingsError)
  | service (e : ServiceError)
  | unwritable (e : WriteFailure)
deriving DecidableEq, Repr

namespace ServerFailure

/-- The message of the cause. -/
def message : ServerFailure → String
  | settings e => e.message
  | service e => e.message
  | unwritable e => e.message

end ServerFailure

/-- **What is sent back**: a status with or without a body, the faults in a body, or nothing. -/
inductive HttpReply
  | response (status : Nat) (body : Json)
  | bare (status : Nat)
  | invalid (errors : List FieldError)
  | failed (e : ServerFailure)
deriving Repr

namespace HttpReply

/-- A body that says what is wrong. -/
def detail (status : Nat) (text : String) : HttpReply :=
  .response status (.obj [("detail", .str text)])

end HttpReply

/-- What is sent back for a refused body: a report, if it can be sent. -/
def BodyError.reply : BodyError → HttpReply
  | invalid errors =>
    match reportFailure? errors with
    | some e => .failed (.unwritable e)
    | none => .invalid errors
  | unreadable => .detail 400 "There was an error parsing the body"

/-! ## Calls -/

namespace ApiCall

/-- A call as a request to a service. -/
def request : ApiCall → Request
  | health => .get
  | outline text contentType => .outline text.fill contentType.fill none
  | completion ctx => .complete ctx
  | hover line cursor => .hover line cursor
  | parameter name => .lookup name

/-- What is sent back when the service gives no answer. -/
def refusal : ServiceError → HttpReply
  | .load (.source e) => .detail 503 ("Parameter catalog unavailable: " ++ e.message)
  | .contentType e => .detail 400 e.message
  | e => .failed (.service e)

/-- What is sent back with an outline. Lone halves in it cannot be sent. -/
def outlined (text contentType : WideText) (symbols : List Symbol) : HttpReply :=
  let texts (s : String) : Option (List String) :=
    (outlineNamed s contentType.fill none).toOption.map Symbol.allTexts
  if text.halvesMatter texts then .failed (.unwritable .loneHalf)
  else .response 200 (.obj (outlineEntries contentType.fill symbols))

/-- What the health endpoint says about a catalog. -/
def healthy (c : Catalog) : Json :=
  .obj [("status", .str "ok"), ("catalog_loaded", .bool true), ("parameter_count", .int c.size),
    ("catalog_generation", .int c.generation)]

/-- What the health endpoint says when there is no catalog. -/
def degraded (e : LoadError) : Json :=
  .obj [("status", .str "degraded"), ("catalog_loaded", .bool false), ("error", .str e.message)]

/-- **What is sent back for a call.** -/
def reply : (c : ApiCall) → Except ServiceError c.request.Answer → HttpReply
  | health, .error (.load (.source e)) => .response 200 (degraded e)
  | outline _ contentType, .error (.contentType _) =>
    .detail 400 (UnknownContentType.messageFor (quotedWide contentType))
  | _, .error e => refusal e
  | health, .ok c => .response 200 (healthy c)
  | outline text contentType, .ok symbols => outlined text contentType symbols
  | completion ctx, .ok items => .response 200 (completionBody (situation ctx) items)
  | hover .., .ok text => .response 200 (hoverBody text)
  | parameter _, .ok (some p) => .response 200 p.record
  | parameter name, .ok none => .detail 404 (unknownParameter name)

end ApiCall

/-! ## The server -/

/-- **A server**: its session, once the service was made. -/
structure Server where
  session : Option Session
deriving Repr

namespace Server

/-- A server that nobody has asked. -/
def start : Server := ⟨none⟩

/-- The session, with the service made if need be. -/
def ensure (env : Environment) (s : Server) : Except SettingsError Session :=
  match s.session with
  | some session => .ok session
  | none => (Settings.ofEnvironment env).map fun settings => .start [settings]

/-- One well-formed request. -/
def call (env : Environment) (loader : Loader) (s : Server) (c : ApiCall) : HttpReply × Server :=
  match s.ensure env with
  | .error e => (.failed (.settings e), s)
  | .ok session =>
    let (reply, session) := session.request loader 0 c.request
    (c.reply reply.answer, ⟨some session⟩)

/-- **One request.** -/
def handle (env : Environment) (loader : Loader) (s : Server) (r : HttpRequest) :
    HttpReply × Server :=
  match route r.method r.path with
  | .nowhere => (.detail 404 "Not Found", s)
  | .wrongMethod => (.detail 405 "Method Not Allowed", s)
  | .redirect => (.bare 307, s)
  | .page => (.bare 200, s)
  | .endpoint e =>
    match decodeCall r.body e with
    | .error fault => (fault.reply, s)
    | .ok c => s.call env loader c

end Server

end DiskLens
