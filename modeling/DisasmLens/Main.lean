import DisasmLens.CommandLine.Run
import DisasmLens.Screen

/-!
# The program

What the machine has is handed to the command line, and what the command line has done is written out. The
screen is one of lines: it is shown again after each of the user's commands, `r` for a new build, `o` and a
line of arguments for the editor, and `q` to close it.

Tools are looked up on the search path but not run from here: every run is answered as refused.
-/

namespace DisasmLens.Program

/-! ### The machine -/

def entry? (path : Text) : IO (Option Entry) := do
  try
    return some (.file (← IO.FS.readBinFile (String.ofList path)).toList)
  catch
    | .permissionDenied .. => return some .sealed
    | .inappropriateType .. => return some .directory
    | _ => return none

def isThere (path : Text) : IO Bool := do
  try
    let _ ← IO.FS.Handle.mk (String.ofList path) .read
    return true
  catch _ => return false

def withFile (h : Host) (path : Text) : IO Host := do
  match ← entry? path with
  | some e => return h.withEntry path e
  | none => return h.withoutEntry path

def withTrace (h : Host) (path : Text) : IO Host :=
  return if ← isThere path then h.withEntry path (.file []) else h

def withSource (h : Host) (source : Text) : IO Host := do
  let h ← withFile h source
  if Path.isSource source then withTrace h (Path.executable source) else return h

/-- Takes over what is at the path of the log file, and the directory that holds it. -/
def withLog (h : Host) : IO Host := do
  let directory := (Path.absolute h.directory CommandLine.Command.logFile).parent.text
  let h := if ← isThere directory then h.withDirectory directory else h
  withFile h CommandLine.Command.logFile

def environment? (name : String) : IO (Option Text) := return (← IO.getEnv name).map String.toList

def findTool (name : Json) : IO (List (Text × Text)) := do
  match Text.ofRunes name.str with
  | .ok name =>
    let directories := ((← environment? "PATH").getD []).splitOn ':'
    match ← (directories.map (Path.join · name)).findM? isThere with
    | some path => return [(name, path)]
    | none => return []
  | .error _ => return []

def withTools (h : Host) : IO Host := do
  match Settings.load.run h with
  | (.error _, _) => return h
  | (.ok s, _) =>
    let compiler ← findTool (s.getD Settings.compilerName Settings.defaultCompiler)
    let disassembler ← findTool (s.getD Settings.disassemblerName Settings.defaultDisassembler)
    return { h with tools := compiler ++ disassembler }

def refusal : RunAnswer where
  failure := some (.system, "Tools are not run from here")

def machine (arguments : List Text) : IO Host := do
  let home := (← environment? "HOME").getD ['/']
  let directory := (← IO.currentDir).toString.toList
  let h := Host.withOwnDirectories { home, directory, answers := [refusal, refusal] }
  let h ← withLog h
  let h ← withFile h (Settings.path h)
  let h ← withTools h
  match CommandLine.Request.ofArguments arguments with
  | .error _ => return h
  | .ok r =>
    let h ← (CommandLine.Request.given? r.dump).toList.foldlM withFile h
    (CommandLine.Request.given? r.file).toList.foldlM withSource h

def readsInput (arguments : List Text) : Bool :=
  match CommandLine.Request.ofArguments arguments with
  | .ok r => r.dump = some ['-']
  | .error _ => false

partial def inputBytes (input : IO.FS.Stream) (sofar : List UInt8) : IO (List UInt8) := do
  let bytes ← input.read 65536
  if bytes.isEmpty then return sofar else inputBytes input (sofar ++ bytes.toList)

/-! ### Writing -/

def write : CommandLine.Output → IO Unit
  | .out text => IO.print (String.ofList text)
  | .err text => IO.eprint (String.ofList text)
  | .listing listing => IO.println (String.ofList listing.plain)

def writeLogs (t : CommandLine.Terminal) : IO Unit := do
  let lines := t.host.journal.logs.map fun r => String.ofList r.message
  if (t.logging.map CommandLine.Logging.place) = some .file then
    let file ← IO.FS.Handle.mk (String.ofList CommandLine.Command.logFile) .append
    lines.forM file.putStrLn
  else lines.forM IO.eprintln

def keepDirectory (before after : Host) : IO Unit := do
  let directory := Settings.directory before
  if after.hasEntry directory ∧ !before.hasEntry directory then
    IO.FS.createDirAll (String.ofList directory)

/-! ### The screen -/

/-- A screen of lines shows each text as it is. -/
def plainly : Renderer := .ok

def showScreen (s : Screen) : IO Unit := do
  if s.displaysListing then IO.println (String.ofList s.listing.plain)
  if s.displaysReport then IO.println (String.ofList s.shownReport)
  if s.editor.isOpen then
    IO.println (String.ofList ("Compiler arguments: " ++ s.editor.field))
    IO.println (String.ofList s.editor.complaintText)
  IO.println (String.ofList s.bar.line)

/-- The event that a line of the user stands for. While the editor is open it is a line of arguments. -/
def screenEvent? (s : Screen) (line : Text) : Option Screen.Event :=
  if s.editor.isOpen then some (.submit line)
  else if line = ['r'] then some .rebuild
  else if line = ['o'] then some .edit
  else none

def complain (f : Fault) : IO UInt32 := do
  IO.println (String.ofList ("Fatal Error: " ++ f.message))
  return 1

partial def screenLoop (input : IO.FS.Stream) (s : Screen) (h : Host) : IO UInt32 := do
  match s.settle plainly with
  | .error f => complain f
  | .ok s =>
    showScreen s
    let line := (← input.getLine).toList
    let command := line.takeWhile (· ≠ '\n')
    if line.isEmpty ∨ (command = ['q'] ∧ !s.editor.isOpen) then return 0
    match screenEvent? s command with
    | none => screenLoop input s h
    | some event =>
      let h ← withSource { h with answers := [refusal, refusal] } s.session.build.source
      match (s.handle plainly event).run h with
      | (.ok s, h) => screenLoop input s h
      | (.error f, _) => complain f

def runScreen (input : IO.FS.Stream) (session : Session) (h : Host) : IO UInt32 := do
  match (Screen.mount plainly session).run h with
  | (.ok s, h) => screenLoop input s h
  | (.error f, _) => complain f

def run (arguments : List Text) : IO UInt32 := do
  let input ← IO.getStdin
  let host ← machine arguments
  let bytes ← if readsInput arguments then inputBytes input [] else pure []
  let (ending, t) := CommandLine.run arguments { host, input := bytes }
  t.output.forM write
  writeLogs t
  keepDirectory host t.host
  match ending, t.screen with
  | .fault f, _ =>
    IO.eprintln (String.ofList f.message)
    return 1
  | .exit 0, some session => runScreen input session t.host
  | .exit code, _ => return UInt32.ofNat code

end DisasmLens.Program

def main (arguments : List String) : IO UInt32 := DisasmLens.Program.run (arguments.map String.toList)
