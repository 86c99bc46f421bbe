import DiskLens.Completion.Context

/-!
# What a completion request asks for

Completion offers parameter names after a `!` and logical literals after a `.`. A line names at most
one parameter, so nothing is offered once a second `!` would be involved.

* `Situation`: what is asked for.
* `SituationRule`: the four rules, each of which decides or passes.
* **`situation`**: the verdict of the first rule that decides.
-/

namespace DiskLens

/-- What a request asks for: a name after the `!` that is there, a name with a `!` of its own, a
logical literal, or nothing. -/
inductive Situation
  | explicitBang
  | implicitBang
  | booleanLiteral
  | noCompletion
deriving DecidableEq, Repr

namespace Situation

/-- All situations. -/
def all : List Situation := [explicitBang, implicitBang, booleanLiteral, noCompletion]

/-- The name of a situation in answers. -/
def name : Situation → String
  | explicitBang => "explicit_bang"
  | implicitBang => "implicit_bang_present"
  | booleanLiteral => "boolean_literal"
  | noCompletion => "no_completion"

/-- The situation with this name. -/
def ofName (name : String) : Except ContextError Situation :=
  match all.find? (·.name = name) with
  | some situation => .ok situation
  | none => .error (.unknownSituation name)

end Situation

namespace CompletionContext

/-- Another `!` stands before the last one before the cursor. -/
def bangBeforeLast (ctx : CompletionContext) : Bool :=
  ctx.lastBang?.any fun k => (ctx.before.take k).contains '!'

/-- A `!` stands before the cursor with only blanks behind it. -/
def loneBangBeforeCursor (ctx : CompletionContext) : Bool :=
  ctx.lastBang?.any fun k => isBlankText (ctx.before.drop (k + 1))

/-- The request is for the name behind a `!`: that `!` was typed, or the keyboard asked right
behind it. -/
def isBangRequest (ctx : CompletionContext) : Bool :=
  match ctx.kind with
  | .character => ctx.trigger = some .bang && ctx.lastBang?.isSome
  | .keyboard => ctx.loneBangBeforeCursor

end CompletionContext

/-- A rule that decides some requests. -/
inductive SituationRule
  | booleanLiteral
  | explicitBang
  | implicitBang
  | fallback
deriving DecidableEq, Repr

namespace SituationRule

/-- The verdict of a rule, `none` if it passes. -/
def verdict? (rule : SituationRule) (ctx : CompletionContext) : Option Situation :=
  match rule with
  | booleanLiteral =>
    if ctx.trigger ≠ some .dot then none
    else if ctx.before.contains '!' then some .noCompletion
    else some .booleanLiteral
  | explicitBang =>
    if !ctx.isBangRequest then none
    else if ctx.bangBeforeLast || ctx.after.contains '!' then some .noCompletion
    else some .explicitBang
  | implicitBang =>
    if ctx.kind ≠ .keyboard then none
    else if ctx.bangBeforeLast then some .noCompletion
    else if ctx.lastBang?.isSome && ctx.after.contains '!' then some .noCompletion
    else some .implicitBang
  | fallback => some .noCompletion

end SituationRule

/-- The rules in the order in which they are asked. -/
def situationRules : List SituationRule :=
  [.booleanLiteral, .explicitBang, .implicitBang, .fallback]

/-- **What a request asks for.** -/
def situation (ctx : CompletionContext) : Situation :=
  (situationRules.findSome? (·.verdict? ctx)).getD .noCompletion

end DiskLens
