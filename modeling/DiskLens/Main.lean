import DiskLens.Cli.Run

/-!
# The program

The program reads the environment and the files that its command line needs, runs the command line
on them, and prints what it leaves. Answers go to standard output, all else to standard error.
-/

namespace DiskLens

namespace Program

/-- The number of an error, which may be given with a minus. -/
def errorNumber (code : UInt32) : UInt32 := min code (0 - code)

/-- The cause of a failed read. -/
def causeOf (e : IO.Error) : FileError :=
  match e with
  | .noFileOrDirectory .. => .notFound
  | .permissionDenied .. => .denied
  | .inappropriateType _ code _ => if errorNumber code = 20 then .notDirectory else .isDirectory
  | _ => .nameTooLong

/-- The content of a file. -/
def readPath (p : Path) : IO (Except PathError Bytes) := do
  if p.text.contains '\x00' then return .error .nullByte
  try
    let bytes ← IO.FS.readBinFile p.text
    return .ok bytes.toList
  catch e => return .error (.file (causeOf e) p)

/-- The files at some paths. Nothing else can be read. -/
def readPaths (paths : List Path) : IO Store := do
  let found ← paths.mapM fun p => do return (p, ← readPath p)
  return fun p => ((found.find? (·.1 = p)).map (·.2)).getD (.error (.file .notFound p))

/-- A variable of the environment, empty if it is not set. -/
def variableText (name : String) : IO String := do return (← IO.getEnv name).getD ""

/-- The environment of the program. -/
def environment : IO Environment :=
  return ⟨← variableText "PRODIMO_PARAMLIST", ← variableText "PRODIMO_WIKI_BASE_URL",
    ← variableText "HOME", []⟩

/-- Prints how a run ends. -/
def printEnd : CliEnd → IO Unit
  | .exit _ message => IO.eprint message
  | .usage .help =>
    IO.println ("usage: " ++ programName ++ " [options] " ++
      "|".intercalate (CommandWord.all.map CommandWord.name) ++ " [arguments]")
  | .usage stop => IO.eprintln stop.line
  | .failed e => IO.eprintln e.message

/-- **The program** on some arguments. It has room to show whatever a catalog file holds. -/
def run (arguments : List String) : IO UInt32 := do
  let env ← environment
  let read ← readPaths (filesOf env arguments)
  let result := runCommandLine env ⟨read, .ample⟩ arguments
  for event in result.events do
    IO.eprintln event.line
  IO.print result.stdout
  printEnd result.finish
  return result.finish.status.toUInt32

end Program

end DiskLens

/-- The entry point. -/
def main (arguments : List String) : IO UInt32 := DiskLens.Program.run arguments
