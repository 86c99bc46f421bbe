/-!
# Cancelling a scan

A scan may be told to stop. It asks its token once for every line, before it reads the line, and a
token that was cancelled once stays so.

* `CancelToken`: a token that bears a number of questions.
* **`scanLines`**: a scan over numbered lines that gives nothing at all when it is cancelled.
-/

namespace DiskLens

/-- A token that answers "go on" to the first `patience` questions and "stop" to all later ones;
`asked` counts the questions. -/
structure CancelToken where
  patience : Nat
  asked : Nat
deriving DecidableEq, Repr

namespace CancelToken

/-- A token that nobody has asked yet. -/
def fresh (patience : Nat) : CancelToken := ⟨patience, 0⟩

/-- The answer to the next question, `true` for "stop", and the token after it. -/
def ask (token : CancelToken) : Bool × CancelToken :=
  (token.patience ≤ token.asked, { token with asked := token.asked + 1 })

/-- A scan without a token is never stopped. -/
def ask? : Option CancelToken → Bool × Option CancelToken
  | none => (false, none)
  | some token => (token.ask.1, some token.ask.2)

end CancelToken

/-- **A scan of the lines from number `n` on**: the state after the last line, or `none` if the
token said "stop", and the token after the scan. -/
def scanLines {α σ : Type} (step : σ → Nat → α → σ) (token : Option CancelToken) (state : σ)
    (n : Nat) : List α → Option σ × Option CancelToken
  | [] => (some state, token)
  | line :: lines =>
    match CancelToken.ask? token with
    | (true, token) => (none, token)
    | (false, token) => scanLines step token (step state n line) (n + 1) lines

end DiskLens
