import DisasmLens.CommandLine.Terminal
import DisasmLens.CommandLine.Usage
import DisasmLens.Markup.Line

/-!
# Running the program

What the program does for the arguments it is given. A request for the versions comes first, then one for
filtering a listing that is there already; what remains needs a source file, whose listing is printed once or
shown on the screen.

The exit code is 0 for a run that did what was asked, 1 for one that could not, and 2 for arguments that are
not understood.
-/

namespace DisasmLens.CommandLine

open Command

namespace Request

def given? (value : Option Text) : Option Text := value.filter (· ≠ [])

def words (r : Request) : Except Fault (List Text) :=
  match r.flags with
  | none => .error .noWords
  | some line => (ShellWords.split line).mapError .words

end Request

/-! ### Versions -/

def missingLine (name : Json) : List Rune :=
  Text.runes "Compiler '" ++ name.str ++ Text.runes "' not found."

/-- The line about the compiler's version. -/
def versionReport (tools : Toolchain) : Command Text := do
  match ← require (← attempt tools.version) with
  | some line => return line
  | none =>
    -- The output takes no surrogate that stands alone.
    require ((Text.ofRunes (missingLine tools.compiler.name)).mapError .surrogates)

def showVersions : Command Unit := do
  print [programName ++ " " ++ programVersion]
  let tools ← require (← attempt Toolchain.load)
  let line ← versionReport tools
  print [line]

/-! ### Filtering a listing -/

/-- Reads a listing, from the input if its path is a hyphen. -/
def readListing (path : Text) : Command (Except Fault Text) := do
  if path = ['-'] then return readText (← get).input
  attempt (readFile path)

def showListing (path target : Text) : Command Unit := do
  match ← readListing path with
  | .ok whole =>
    let (listing, _) ← act (Listing.processLogged target whole)
    write (.listing (Markup.listing listing))
  | .error f =>
    if f.isSystem then abort ["Error: Cannot read objdump listing: " ++ f.message]
    else throw (.fault f)

/-! ### Source files -/

def abortFor {α : Type} (message : Text) : Command α := abort ["Fatal Error: " ++ message]

def openSession (source : Text) (flags : List Text) : Command Session := do
  match ← attempt (Session.load source) with
  | .ok session => return { session with flags }
  | .error f => abortFor f.message

def failureReport (b : Build) : Text := b.reportOr "Error: No disassembly produced." ++ ['\n']

def printOnce (source : Text) (flags : List Text) : Command Unit := do
  let session ← openSession source flags
  let session ← act (Session.refresh { session with isSubscribed := false })
  if session.build.isShowable then
    write (.listing (Markup.listing session.build.listing))
  else
    write (.err (failureReport session.build))
    exit 1

def openScreen (source : Text) (flags : List Text) : Command Unit := do
  let session ← openSession source flags
  modify fun t => { t with screen := some session }
  match (← get).screenEnd with
  | .closed | .interrupted => return
  | .failed message => abortFor message

def sourcePath (file : Option Text) : Command Text := do
  match file with
  | none => abort ["Error: No source file specified.", "Usage: jaibolt <filename.jai>"]
  | some file =>
    let h := (← get).host
    let source := (Path.absolute h.directory file).text
    if !h.hasEntry source then abort ["Error: File not found: " ++ source]
    if !Path.isSource source then abort ["Error: Unsupported file type. Use a .jai file"]
    return source

/-! ### The run -/

def serve (r : Request) : Command Unit := do
  if r.showsVersion then
    showVersions
    exit 0
  let flags ← require r.words
  match Request.given? r.dump with
  | some path =>
    logTo .console r.isVerbose
    match Request.given? r.file with
    | some target => showListing path target
    | none =>
      abort ["Error: --dump needs the source path to keep.",
        "Usage: jaibolt --dump objdump.txt <path/to/file.jai>"]
  | none =>
    let source ← sourcePath (Request.given? r.file)
    logTo (if r.printsOnce then .console else .file) r.isVerbose
    if r.printsOnce then printOnce source flags else openScreen source flags

def command (arguments : List Text) : Command Unit := do
  match Request.ofArguments arguments with
  | .ok request => serve request
  | .error .help => write (.out help)
  | .error (.usage e) =>
    write (.err e.report)
    exit 2

/-- A run of the program from its arguments. Warnings are logged until it is settled what is. -/
def run (arguments : List Text) (t : Terminal) : Ending × Terminal :=
  match (command arguments).run { t with host.threshold := .warning } with
  | (.ok _, t) => (.exit 0, t)
  | (.error ending, t) => (ending, t)

end DisasmLens.CommandLine
