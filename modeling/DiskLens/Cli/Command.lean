import DiskLens.Cli.Arguments
import DiskLens.Completion.Context
import DiskLens.Outline.ContentType

/-!
# Commands

* `CommandWord`: the commands and their grammars.
* `Command`, `CommandOptions`: what a command line asks for.
* `UsageStop`: a command line that asks for nothing, and the last line that it prints.
* **`parseCommandLine`**: what a command line asks for.
-/

namespace DiskLens

/-! ## Command words -/

/-- A command word. -/
inductive CommandWord
  | outline
  | complete
  | hover
  | param
deriving DecidableEq, Repr

namespace CommandWord

/-- All command words. -/
def all : List CommandWord := [outline, complete, hover, param]

/-- A command word as it is written. -/
def name : CommandWord → String
  | outline => "outline"
  | complete => "complete"
  | hover => "hover"
  | param => "param"

/-- The arguments of a command. -/
def grammar : CommandWord → Grammar
  | outline =>
    ⟨[helpOption,
        ⟨["--content-type"], .value (.oneOf (ContentType.all.map ContentType.name)) false⟩],
      .word "file"⟩
  | complete =>
    ⟨[helpOption, ⟨["--cursor"], .value .integer false⟩,
        ⟨["--trigger"], .value (.oneOf (TriggerChar.all.map TriggerChar.text)) false⟩,
        ⟨["--keyboard"], .flag⟩],
      .word "line"⟩
  | hover => ⟨[helpOption, ⟨["--cursor"], .value .integer true⟩], .word "line"⟩
  | param => ⟨[helpOption], .word "name"⟩

end CommandWord

/-- The arguments before the command word, and the word. -/
def mainGrammar : Grammar :=
  ⟨[helpOption, ⟨["--catalog"], .value .any false⟩, ⟨["--wiki-base-url"], .value .any false⟩,
      ⟨["--verbose", "-v"], .flag⟩],
    .command "command" (CommandWord.all.map CommandWord.name)⟩

/-! ## Commands -/

/-- A value that an option may give: nothing was said, it was left blank, or there is one. -/
inductive Choice (α : Type)
  | unset
  | blank
  | value (a : α)
deriving DecidableEq, Repr

namespace Choice

/-- The choice in what an option was given, where its grammar allows only texts that can be read. -/
def read {α : Type} (read? : String → Option α) : Option Given → Choice α
  | none => unset
  | some .blank => blank
  | some (.text s) =>
    match read? s with
    | some a => value a
    | none => unset

/-- The value, if there is one. -/
def toOption {α : Type} : Choice α → Option α
  | value a => some a
  | _ => none

end Choice

/-- **A command.** The cursor of a hover is always given, be it blank. -/
inductive Command
  | outline (file : String) (contentType : Option ContentType)
  | complete (line : String) (cursor : Choice Int) (trigger : Choice TriggerChar) (keyboard : Bool)
  | hover (line : String) (cursor : Option Int)
  | param (name : String)
deriving DecidableEq, Repr

/-- The options that all commands share. -/
structure CommandOptions where
  catalog : Choice String
  wikiBase : Option String
  verbose : Bool
deriving DecidableEq, Repr

/-- The options in the arguments before the command word. A blank address counts as not given. -/
def CommandOptions.of (t : Taken) : CommandOptions :=
  ⟨.read some (t.value? "--catalog"), (t.value? "--wiki-base-url").bind Given.text?,
    t.has "--verbose"⟩

/-- The cursor in the arguments. -/
def cursorOf (t : Taken) : Choice Int :=
  .read (fun text => readInteger? text.toList) (t.value? "--cursor")

/-- The trigger in the arguments. -/
def triggerOf (t : Taken) : Choice TriggerChar :=
  .read (fun text => (TriggerChar.ofText text).toOption) (t.value? "--trigger")

/-- The content type in the arguments. A blank one counts as not given. -/
def contentTypeOf (t : Taken) : Option ContentType :=
  ((t.value? "--content-type").bind Given.text?).bind (ContentType.ofName · |>.toOption)

/-- The command with some arguments, which follow its grammar. -/
def CommandWord.command (word : CommandWord) (t : Taken) : Command :=
  let subject := t.positional.headD ""
  match word with
  | outline => .outline subject (contentTypeOf t)
  | complete => .complete subject (cursorOf t) (triggerOf t) (t.has "--keyboard")
  | hover => .hover subject (cursorOf t).toOption
  | param => .param subject

/-! ## Command lines -/

/-- The name of the program in messages. -/
def programName : String := "prodimo_query.py"

/-- A command line that asks for nothing: it asks for the help, or it is at fault. -/
inductive UsageStop
  | help
  | fault (program message : String)
deriving DecidableEq, Repr

/-- The line that says what is wrong. -/
def UsageStop.line : UsageStop → String
  | help => ""
  | fault program message => program ++ ": error: " ++ message

/-- The last line that is printed, which a line break in a message may have cut. -/
def UsageStop.lastLine (stop : UsageStop) : String :=
  String.ofList (DiskLens.lastLine stop.line.toList)

/-- What stopped the arguments of a program or of one of its commands. -/
def ArgumentStop.usage (program : String) : ArgumentStop → UsageStop
  | help => .help
  | fault message => .fault program message

/-- What is said of arguments that are left over. -/
def unrecognized (extras : List String) : UsageStop :=
  .fault programName ("unrecognized arguments: " ++ " ".intercalate extras)

/-- **What a command line asks for.** -/
def parseCommandLine (arguments : List String) : Except UsageStop (CommandOptions × Command) := do
  let t ← (mainGrammar.parse arguments).mapError (·.usage programName)
  let name := t.positional.headD ""
  match CommandWord.all.find? (·.name = name) with
  | none => throw (unrecognized t.positional)
  | some word =>
    let u ← (word.grammar.parse t.positional.tail).mapError
      (·.usage (programName ++ " " ++ name))
    if t.extras ++ u.extras ≠ [] then throw (unrecognized (t.extras ++ u.extras))
    pure (.of t, word.command u)

end DiskLens
