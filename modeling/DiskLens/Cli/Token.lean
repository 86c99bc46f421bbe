import DiskLens.Cli.Grammar
import DiskLens.Text.Lines

/-!
# Tokens of a command line

Each argument is an option or a word. Long names may be cut short as long as only one option fits, a
value may follow a name behind `=`, and a short name also directly. Negative numbers and texts with
a space are words. `--` makes words of all that follows.

* `OptionUse`: an option as it is used.
* `Token`, `TokenKind`: an argument and what it is.
* **`Grammar.tokens`**: the tokens of some arguments.
-/

namespace DiskLens

/-- An option under one of its names, with the text attached to the name: behind `=`, or directly
behind a short name. -/
structure OptionUse where
  option : OptionSpec
  name : String
  attached : Option (List Char)
deriving DecidableEq, Repr

/-- What an argument is: a word, the mark `--`, an option, or an option that nobody knows. -/
inductive TokenKind
  | word
  | separator
  | option (use : OptionUse)
  | unknown
deriving DecidableEq, Repr

/-- **An argument**, as it was written and what it is. -/
structure Token where
  text : String
  kind : TokenKind
deriving DecidableEq, Repr

/-- Why the arguments cannot be taken, or that the help was asked for. -/
inductive ArgumentStop
  | help
  | fault (message : String)
deriving DecidableEq, Repr

/-! ## Words that look like options -/

/-- Some decimal digits and nothing else. -/
def allDigits (s : List Char) : Bool := s ≠ [] && s.all (digitValue? · |>.isSome)

/-- A negative number, with or without digits before a point. -/
def isNegativeNumber : List Char → Bool
  | '-' :: cs =>
    let body := dropLineFeed cs
    allDigits body ||
      match body.dropWhile (digitValue? · |>.isSome) with
      | '.' :: fraction => allDigits fraction
      | _ => false
  | _ => false

/-! ## Options -/

/-- The text before and behind the first `=`. -/
def splitEquals? (s : List Char) : Option (List Char × List Char) :=
  match s.dropWhile (· != '=') with
  | _ :: value => some (s.takeWhile (· != '='), value)
  | [] => none

/-- What is said of an argument that may stand for several options. -/
def ambiguous (text : String) (uses : List OptionUse) : String :=
  "ambiguous option: " ++ text ++ " could match " ++ ", ".intercalate (uses.map (·.name))

namespace Grammar

/-- The options that an argument with two dashes may be short for. -/
def longMatches (g : Grammar) (s : List Char) : List OptionUse :=
  let (stem, attached) := match splitEquals? s with
    | some (stem, value) => (stem, some value)
    | none => (s, none)
  (g.named.filter fun entry => stem.isPrefixOf entry.1.toList).map fun (name, o) =>
    ⟨o, name, attached⟩

/-- The options that an argument with one dash may stand for: a short name with text behind it, or a
name that it is short for. -/
def shortMatches (g : Grammar) (s : List Char) : List OptionUse :=
  g.named.filterMap fun (name, o) =>
    if name.toList = s.take 2 then some ⟨o, name, some (s.drop 2)⟩
    else if s.isPrefixOf name.toList then some ⟨o, name, none⟩
    else none

/-- The options that an argument may stand for. -/
def optionMatches (g : Grammar) (s : List Char) : List OptionUse :=
  match s with
  | '-' :: '-' :: _ => g.longMatches s
  | _ => g.shortMatches s

/-- The option whose full name an argument has, or has before a `=`. -/
def exactOption? (g : Grammar) (text : String) : Option OptionUse :=
  match g.find? text with
  | some o => some ⟨o, text, none⟩
  | none =>
    match splitEquals? text.toList with
    | some (name, value) =>
      (g.find? (String.ofList name)).map (⟨·, String.ofList name, some value⟩)
    | none => none

/-- **What an argument is**, if it is not `--`. -/
def kindOf (g : Grammar) (text : String) : Except ArgumentStop TokenKind :=
  let s := text.toList
  if s.head? ≠ some '-' then .ok .word
  else match g.exactOption? text with
    | some use => .ok (.option use)
    | none =>
      if s.length = 1 then .ok .word
      else match g.optionMatches s with
        | [use] => .ok (.option use)
        | [] => .ok (if isNegativeNumber s || s.contains ' ' then .word else .unknown)
        | uses => .error (.fault (ambiguous text uses))

/-- **The tokens of some arguments.** -/
def tokens (g : Grammar) : List String → Except ArgumentStop (List Token)
  | [] => .ok []
  | text :: texts =>
    if text = "--" then .ok (⟨text, .separator⟩ :: texts.map (⟨·, .word⟩))
    else do
      let kind ← g.kindOf text
      let rest ← g.tokens texts
      pure (⟨text, kind⟩ :: rest)

end Grammar

end DiskLens
