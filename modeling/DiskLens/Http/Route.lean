import DiskLens.Text.Lines

/-!
# Routes

* `Endpoint`: what the API offers.
* `endpointAt?`, `isPage`: the endpoint at a path, and the paths of pages about the API.
* **`route`**: where a request goes.
-/

namespace DiskLens

/-- What the API offers. -/
inductive Endpoint
  | health
  | outline
  | completion
  | hover
  | parameter (name : String)
deriving DecidableEq, Repr

namespace Endpoint

/-- The method of an endpoint. -/
def method : Endpoint → String
  | health | parameter _ => "GET"
  | outline | completion | hover => "POST"

/-- The endpoints with a path of their own. -/
def fixed : List (String × Endpoint) :=
  [("/api/health", health), ("/api/outline", outline), ("/api/completion", completion),
    ("/api/hover", hover)]

/-- Where parameters are, by name. -/
def parameterBase : String := "/api/parameters/"

end Endpoint

/-- **The endpoint at a path.** A parameter has a name without slashes; a fixed path may end in a
line feed. -/
def endpointAt? (path : List Char) : Option Endpoint :=
  match Endpoint.fixed.find? (·.1.toList = dropLineFeed path) with
  | some (_, endpoint) => some endpoint
  | none =>
    let base := Endpoint.parameterBase.toList
    let name := path.drop base.length
    if base.isPrefixOf path ∧ name ≠ [] ∧ '/' ∉ name then some (.parameter (String.ofList name))
    else none

/-- The pages that describe the API to those who use it. -/
def pages : List String := ["/openapi.json", "/docs", "/docs/oauth2-redirect", "/redoc"]

/-- There is a page at a path, which may end in a line feed. -/
def isPage (path : List Char) : Bool := pages.any (·.toList = dropLineFeed path)

/-- The methods for pages. -/
def pageMethods : List String := ["GET", "HEAD"]

/-- Where a request goes: to an endpoint, to a page, to one of them with another method, to a path
that differs in its slashes at the end, or nowhere. -/
inductive Routing
  | endpoint (e : Endpoint)
  | page
  | wrongMethod
  | redirect
  | nowhere
deriving DecidableEq, Repr

/-- The path with or without slashes at its end, whichever it is not. -/
def toggleSlash (path : List Char) : List Char :=
  if path.getLast? = some '/' then dropTail (· == '/') path else path ++ ['/']

/-- **Where a request goes.** -/
def route (method path : String) : Routing :=
  match endpointAt? path.toList with
  | some e => if e.method = method then .endpoint e else .wrongMethod
  | none =>
    let other := toggleSlash path.toList
    if isPage path.toList then if method ∈ pageMethods then .page else .wrongMethod
    else if path ≠ "/" ∧ ((endpointAt? other).isSome ∨ isPage other) then .redirect
    else .nowhere

end DiskLens
