import DiskLens.Cli.Token

/-!
# Taking arguments

Options may stand anywhere among the words. Short flags may be joined behind one dash. The first
word is the positional argument; a command word takes all that follows it, options too. What fits
nowhere is left over. The mark `--` is no value: an option that has it attached is left blank.

* `Given`: what an option was given.
* `Taken`: what was taken from the arguments.
* `Grammar.joinedFlags`, `Grammar.optionsIn`: the options in one argument.
* `Grammar.parseTokens`: one pass over the tokens.
* **`Grammar.parse`**: the arguments of a grammar.
-/

namespace DiskLens

/-- What an option was given: a text, or the mark `--`, which leaves it blank. -/
inductive Given
  | blank
  | text (value : String)
deriving DecidableEq, Repr

namespace Given

/-- What attached text gives. -/
def ofAttached (text : List Char) : Given :=
  if text = ['-', '-'] then blank else .text (String.ofList text)

/-- The text, if there is one. -/
def text? : Given → Option String
  | blank => none
  | text value => some value

end Given

/-- An option that was given, with its value if it has one. -/
abbrev OptionGiven := OptionSpec × Option Given

/-- **What was taken from the arguments**: options with their values in the order given, the
positional argument, and what is left over. -/
structure Taken where
  options : List OptionGiven
  positional : List String
  extras : List String
deriving DecidableEq, Repr

namespace Taken

/-- Nothing was taken. -/
def nothing : Taken := ⟨[], [], []⟩

/-- One more left over. -/
def leave (t : Taken) (text : String) : Taken := { t with extras := t.extras ++ [text] }

/-- The option was given. -/
def has (t : Taken) (name : String) : Bool := t.options.any fun entry => name ∈ entry.1.names

/-- What was given last under a name. -/
def value? (t : Taken) (name : String) : Option Given :=
  (t.options.reverse.find? fun entry => name ∈ entry.1.names).bind (·.2)

end Taken

/-- What is said about an option. -/
def optionFault (o : OptionSpec) (message : String) : ArgumentStop :=
  .fault ("argument " ++ o.title ++ ": " ++ message)

namespace Taken

/-- One more option. Its value is looked at when it is taken; a blank one passes. -/
def add (t : Taken) (o : OptionSpec) (value : Option Given) : Except ArgumentStop Taken :=
  match o.action with
  | .help => .error .help
  | .flag => .ok { t with options := t.options ++ [(o, none)] }
  | .value kind _ =>
    match (value.bind Given.text?).bind kind.fault? with
    | some message => .error (optionFault o message)
    | none => .ok { t with options := t.options ++ [(o, value)] }

/-- Several more options. -/
def addAll (t : Taken) (given : List OptionGiven) : Except ArgumentStop Taken :=
  given.foldlM (fun t (o, value) => t.add o value) t

end Taken

/-! ## Attached text -/

/-- The short option with a letter. -/
def Grammar.shortOption? (g : Grammar) (c : Char) : Option OptionSpec :=
  g.find? (String.ofList ['-', c])

/-- A flag cannot take the text attached to it. -/
def ignoredText (o : OptionSpec) (text : List Char) : ArgumentStop :=
  optionFault o ("ignored explicit argument " ++ quoted (String.ofList text))

/-- **The options behind a short flag**: each further letter is a short option, and one that has a
value takes the letters behind it. The last option comes separately if its value is still to
come. -/
def Grammar.joinedFlags (g : Grammar) (flag : OptionSpec) :
    List Char → Except ArgumentStop (List OptionGiven × Option OptionSpec)
  | [] => .error (ignoredText flag [])
  | c :: rest =>
    match g.shortOption? c with
    | none => .error (ignoredText flag (c :: rest))
    | some next =>
      if rest = [] then .ok ([(flag, none)], some next)
      else if next.hasValue then .ok ([(flag, none), (next, some (.ofAttached rest))], none)
      else do
        let (given, last) ← g.joinedFlags next rest
        pure ((flag, none) :: given, last)

/-- The name has two dashes. -/
def isLongName (name : String) : Bool := ['-', '-'].isPrefixOf name.toList

/-- The options in one argument, and the last of them if its value is still to come. -/
def Grammar.optionsIn (g : Grammar) (use : OptionUse) :
    Except ArgumentStop (List OptionGiven × Option OptionSpec) :=
  let o := use.option
  match use.attached with
  | none => .ok ([], some o)
  | some text =>
    if o.hasValue then .ok ([(o, some (.ofAttached text))], none)
    else if isLongName use.name then .error (ignoredText o text)
    else g.joinedFlags o text

/-! ## The pass -/

/-- The positional argument that starts at a word, and the tokens behind it. A mark next to a word
is no argument. A command takes all tokens as they are, the mark before it too. -/
def Positional.take (p : Positional) (first : List String) (word : String) (rest : List Token) :
    List String × List Token :=
  match p with
  | .command .. => (first ++ word :: rest.map (·.text), [])
  | .word _ =>
    match rest with
    | ⟨_, .separator⟩ :: rest => ([word], rest)
    | rest => ([word], rest)

/-- One pass over the tokens; `fuel` is at least their number. -/
def Grammar.parseTokens (g : Grammar) (t : Taken) : Nat → List Token → Except ArgumentStop Taken
  | 0, _ | _, [] => .ok t
  | fuel + 1, token :: rest =>
    match token.kind with
    | .unknown => g.parseTokens (t.leave token.text) fuel rest
    | .word =>
      if t.positional = [] then
        let (found, rest) := g.positional.take [] token.text rest
        g.parseTokens { t with positional := found } fuel rest
      else g.parseTokens (t.leave token.text) fuel rest
    | .separator =>
      match rest with
      | ⟨text, .word⟩ :: behind =>
        if t.positional = [] then
          let (found, rest) := g.positional.take [token.text] text behind
          g.parseTokens { t with positional := found } fuel rest
        else g.parseTokens (t.leave token.text) fuel rest
      | _ => g.parseTokens (t.leave token.text) fuel rest
    | .option use => do
      let (given, last) ← g.optionsIn use
      match last with
      | none => g.parseTokens (← t.addAll given) fuel rest
      | some o =>
        if o.hasValue then
          match rest with
          | ⟨text, .word⟩ :: rest =>
            g.parseTokens (← t.addAll (given ++ [(o, some (.text text))])) fuel rest
          | _ => throw (optionFault o "expected one argument")
        else g.parseTokens (← t.addAll (given ++ [(o, none)])) fuel rest

/-! ## Whole command lines -/

/-- What has to be given and was not, in the order of the grammar: the positional argument stands
behind the help and before the other options. -/
def Grammar.missing (g : Grammar) (t : Taken) : List String :=
  (if t.positional = [] then [g.positional.title] else []) ++
    (g.options.filter fun o => o.isRequired && !(t.options.any (·.1 = o))).map (·.title)

/-- What is wrong with a command word. -/
def Grammar.commandFault? (g : Grammar) (t : Taken) : Option ArgumentStop :=
  match g.positional, t.positional with
  | .command title words, word :: _ =>
    if word ∈ words then none
    else some (.fault ("argument " ++ title ++ ": " ++ invalidChoice word words))
  | _, _ => none

/-- **The arguments of a grammar.** -/
def Grammar.parse (g : Grammar) (texts : List String) : Except ArgumentStop Taken := do
  let tokens ← g.tokens texts
  let t ← g.parseTokens .nothing tokens.length tokens
  if let some stop := g.commandFault? t then throw stop
  if g.missing t ≠ [] then
    throw (.fault ("the following arguments are required: " ++ ", ".intercalate (g.missing t)))
  pure t

end DiskLens
