import DiskLens.Cli.Command
import DiskLens.Json.Writer
import DiskLens.Service.Session

/-!
# Running a command line

A command line makes a service of its own, puts one request to it and prints the answer as JSON. The
exit status tells whether something was found, and 2 says that there is no catalog.

* `CliEnd`, `CliResult`: how a run ends and what it leaves; `CliEnd.status`: its exit status.
* `runCommand`: one command.
* `filesOf`: the files that a command line may read.
* **`runCommandLine`**: a whole command line.
-/

namespace DiskLens

/-- Why a run breaks off. -/
inductive CliFailure
  | settings (e : SettingsError)
  | read (e : PathError)
  | service (e : ServiceError)
  | blankTrigger
  | blankCursor (comparison : String)
deriving DecidableEq, Repr

namespace CliFailure

/-- The message of the cause. -/
def message : CliFailure → String
  | settings e => e.message
  | read e => e.message
  | service e => e.message
  | blankTrigger => "unsupported trigger character: []"
  | blankCursor comparison =>
    quoted comparison ++ " not supported between instances of 'int' and 'list'"

end CliFailure

/-- How a run ends: with a status and a message, before it started, or broken off. -/
inductive CliEnd
  | exit (status : Nat) (message : String)
  | usage (stop : UsageStop)
  | failed (e : CliFailure)
deriving DecidableEq, Repr

/-- **The exit status of a run.** A run that breaks off has status 1, and one that never started has
status 2 unless it was asked for help. -/
def CliEnd.status : CliEnd → Nat
  | exit status _ => status
  | usage .help => 0
  | usage _ => 2
  | failed _ => 1

/-- **What a run leaves**: what it prints, what it reports, and how it ends. -/
structure CliResult where
  stdout : String
  events : List LogEvent
  finish : CliEnd
deriving DecidableEq, Repr

/-- A value as it is printed. -/
def printed (j : Json) : String := j.pretty ++ "\n"

namespace CliResult

/-- A run that prints a value. -/
def print (status : Nat) (events : List LogEvent) (j : Json) : CliResult :=
  ⟨printed j, events, .exit status ""⟩

/-- A run that gets no answer from its service. -/
def refuse (events : List LogEvent) : ServiceError → CliResult
  | .load (.source e) => ⟨"", events, .exit 2 ("Error: " ++ e.message ++ "\n")⟩
  | e => ⟨"", events, .failed (.service e)⟩

end CliResult

/-- A request to the service of a run. -/
def askService (loader : Loader) (settings : Settings) (r : Request)
    (use : List LogEvent → r.Answer → CliResult) : CliResult :=
  let reply := ((Session.start [settings]).request loader 0 r).1
  match reply.answer with
  | .ok answer => use reply.events answer
  | .error e => .refuse reply.events e

/-- The text of a file. What is not UTF-8 is replaced, and all line ends are line feeds. -/
def fileText (bytes : Bytes) : String := String.ofList (unifyLineEnds (Utf8.decodeLossy bytes))

/-- The request that a completion command stands for. A trigger counts as typed, unless the keyboard
is said to have asked. The cursor is at the end of the line if none is given. -/
def completionContext (line : String) (cursor : Option Int) (trigger : Option TriggerChar)
    (keyboard : Bool) : CompletionContext :=
  ⟨line.toList, cursor.getD line.length, trigger,
    if trigger.isSome && !keyboard then .character else .keyboard⟩

/-- A run that needs a place in a line and has a blank one. It breaks off once the catalog is
there. -/
def runBlankCursor (loader : Loader) (settings : Settings) (comparison : String) : CliResult :=
  askService loader settings .get fun events _ => ⟨"", events, .failed (.blankCursor comparison)⟩

/-- **One command.** The file of an outline is read before anything else, and a blank trigger is
refused before anything else. A blank cursor of a hover matters only on a line with a name. -/
def runCommand (loader : Loader) (settings : Settings) : Command → CliResult
  | .outline file contentType =>
    let path := Path.ofText file
    let type := (contentType.getD (ContentType.ofFileName path.name)).name
    match loader.read path with
    | .error e => ⟨"", [], .failed (.read e)⟩
    | .ok bytes =>
      askService loader settings (.outline (fileText bytes) type none) fun events symbols =>
        .print 0 (events ++ [.outlined path symbols.length type])
          (.obj (("file", .str path.text) :: outlineEntries type symbols))
  | .complete _ _ .blank _ => ⟨"", [], .failed .blankTrigger⟩
  | .complete _ .blank _ _ => runBlankCursor loader settings "<"
  | .complete line cursor trigger keyboard =>
    let ctx := completionContext line cursor.toOption trigger.toOption keyboard
    askService loader settings (.complete ctx) fun events items =>
      .print 0 events (completionBody (situation ctx) items)
  | .hover line cursor =>
    if cursor.isNone && (nameIn? line.toList).isSome then runBlankCursor loader settings "<="
    else askService loader settings (.hover line (cursor.getD 0)) fun events text =>
      .print (if text.isSome then 0 else 1) events (hoverBody text)
  | .param name =>
    askService loader settings (.lookup name) fun events found =>
      match found with
      | some p => .print 0 events p.record
      | none => ⟨"", events, .exit 1 (unknownParameter name ++ "\n")⟩

/-- The catalog that the options ask for. -/
def sourceOf (options : CommandOptions) : Option CatalogSource :=
  match options.catalog with
  | .unset => none
  | .blank => some .blank
  | .value path => some (.file (Path.ofText path))

/-- The settings of a run: those of the environment, with the options of the command line. -/
def settingsOf (env : Environment) (options : CommandOptions) : Except SettingsError Settings :=
  (Settings.ofEnvironment env).map (·.override (sourceOf options) options.wikiBase)

/-- The files that a command line may read: its catalog and the file of an outline. -/
def filesOf (env : Environment) (arguments : List String) : List Path :=
  match parseCommandLine arguments with
  | .error _ => []
  | .ok (options, command) =>
    let catalog := match settingsOf env options with
      | .ok ⟨.file path, _⟩ => [path]
      | _ => []
    match command with
    | .outline file _ => Path.ofText file :: catalog
    | _ => catalog

/-- **A whole command line.** -/
def runCommandLine (env : Environment) (loader : Loader) (arguments : List String) : CliResult :=
  match parseCommandLine arguments with
  | .error stop => ⟨"", [], .usage stop⟩
  | .ok (options, command) =>
    match settingsOf env options with
    | .error e => ⟨"", [], .failed (.settings e)⟩
    | .ok settings => runCommand loader settings command

end DiskLens
