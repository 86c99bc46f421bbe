import DiskLens.Text.Integer
import DiskLens.Text.Quoted

/-!
# Option grammars

A command line is described by its options and its one positional argument. Options have long names
with two dashes and short names with one dash and one letter.

* `ValueKind`: which texts are values of an option.
* `OptionSpec`, `Positional`, **`Grammar`**: the description of a command line.
-/

namespace DiskLens

/-- Which texts are values of an option: all, integers, or some words. -/
inductive ValueKind
  | any
  | integer
  | oneOf (words : List String)
deriving DecidableEq, Repr

/-- What is said of a text that is none of some words. -/
def invalidChoice (text : String) (words : List String) : String :=
  let choices := ", ".intercalate (words.map quoted)
  "invalid choice: " ++ quoted text ++ " (choose from " ++ choices ++ ")"

namespace ValueKind

/-- What is wrong with a text as a value. -/
def fault? (kind : ValueKind) (text : String) : Option String :=
  match kind with
  | any => none
  | integer =>
    if (readInteger? text.toList).isSome then none else some ("invalid int value: " ++ quoted text)
  | oneOf words => if text ∈ words then none else some (invalidChoice text words)

end ValueKind

/-- What an option does: it shows the help, it is there or not, or it has a value. -/
inductive OptionAction
  | help
  | flag
  | value (kind : ValueKind) (required : Bool)
deriving DecidableEq, Repr

/-- **An option** with its names. -/
structure OptionSpec where
  names : List String
  action : OptionAction
deriving DecidableEq, Repr

namespace OptionSpec

/-- The option in messages. -/
def title (o : OptionSpec) : String := "/".intercalate o.names

/-- The option has a value. -/
def hasValue (o : OptionSpec) : Bool :=
  match o.action with
  | .value .. => true
  | _ => false

/-- The option has to be given. -/
def isRequired (o : OptionSpec) : Bool :=
  match o.action with
  | .value _ required => required
  | _ => false

end OptionSpec

/-- The positional argument: one word, or a command word with all that follows it. -/
inductive Positional
  | word (title : String)
  | command (title : String) (words : List String)
deriving DecidableEq, Repr

/-- The positional argument in messages. -/
def Positional.title : Positional → String
  | word title => title
  | command title _ => title

/-- **The description of a command line.** -/
structure Grammar where
  options : List OptionSpec
  positional : Positional
deriving DecidableEq, Repr

namespace Grammar

/-- The names of the options, each with its option. -/
def named (g : Grammar) : List (String × OptionSpec) :=
  g.options.flatMap fun o => o.names.map (·, o)

/-- The option with a name. -/
def find? (g : Grammar) (name : String) : Option OptionSpec :=
  (g.named.find? (·.1 = name)).map (·.2)

end Grammar

/-- The option that every command line has. -/
def helpOption : OptionSpec := ⟨["-h", "--help"], .help⟩

end DiskLens
