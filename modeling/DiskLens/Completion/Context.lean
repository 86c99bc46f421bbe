import DiskLens.Text.Blank
import DiskLens.Text.Quoted

/-!
# Completion requests

In a parameter file a value is followed by `!` and the name of its parameter. A completion request
is a line, a cursor in it, and how the request came about.

* `TriggerChar`, `TriggerKind`: the characters that ask for completion by being typed, and whether
  one was.
* `CompletionContext`: a request. Its cursor may lie outside the line and is then taken to the
  nearer end.
-/

namespace DiskLens

/-- A character that asks for completion when typed. -/
inductive TriggerChar
  | bang
  | dot
deriving DecidableEq, Repr

/-- How a request came about. -/
inductive TriggerKind
  | keyboard
  | character
deriving DecidableEq, Repr

/-- A request that makes no sense. -/
inductive ContextError
  | unknownKind (name : String)
  | unsupportedTrigger (text : String)
  | unknownSituation (name : String)
deriving DecidableEq, Repr

namespace ContextError

/-- The message quotes the word that nobody knows. -/
def message : ContextError → String
  | unknownKind name => quoted name ++ " is not a valid TriggerKind"
  | unsupportedTrigger text => "unsupported trigger character: " ++ quoted text
  | unknownSituation name => quoted name ++ " is not a valid TriggerSituation"

end ContextError

namespace TriggerChar

/-- All trigger characters. -/
def all : List TriggerChar := [bang, dot]

/-- The character as text. -/
def text : TriggerChar → String
  | bang => "!"
  | dot => "."

/-- The trigger character with this text. -/
def ofText (text : String) : Except ContextError TriggerChar :=
  match all.find? (·.text = text) with
  | some trigger => .ok trigger
  | none => .error (.unsupportedTrigger text)

end TriggerChar

namespace TriggerKind

/-- All kinds. -/
def all : List TriggerKind := [keyboard, character]

/-- The name of a kind in requests. -/
def name : TriggerKind → String
  | keyboard => "keyboard"
  | character => "character"

/-- The kind with this name. -/
def ofName (name : String) : Except ContextError TriggerKind :=
  match all.find? (·.name = name) with
  | some kind => .ok kind
  | none => .error (.unknownKind name)

end TriggerKind

/-- **A completion request.** -/
structure CompletionContext where
  line : List Char
  cursor : Int
  trigger : Option TriggerChar
  kind : TriggerKind
deriving DecidableEq, Repr

namespace CompletionContext

/-- A request as callers write it: the kind and the trigger character are words, and the kind is
looked at first. -/
def ofNames (line : String) (cursor : Int) (trigger : Option String) (kind : String) :
    Except ContextError CompletionContext := do
  let kind ← TriggerKind.ofName kind
  let trigger ← trigger.mapM TriggerChar.ofText
  pure ⟨line.toList, cursor, trigger, kind⟩

/-- The cursor, moved into the line. -/
def offset (ctx : CompletionContext) : Nat := min ctx.cursor.toNat ctx.line.length

/-- The line up to the cursor. -/
def before (ctx : CompletionContext) : List Char := ctx.line.take ctx.offset

/-- The line from the cursor on. -/
def after (ctx : CompletionContext) : List Char := ctx.line.drop ctx.offset

/-- Where the last `!` before the cursor stands. -/
def lastBang? (ctx : CompletionContext) : Option Nat :=
  if ctx.before.contains '!' then
    some (ctx.before.length - 1 - (ctx.before.reverse.takeWhile (· != '!')).length)
  else none

/-- Only blanks follow the cursor. -/
def atEndOfLine (ctx : CompletionContext) : Bool := isBlankText ctx.after

end CompletionContext

end DiskLens
