import DisasmLens.Build
import DisasmLens.Diagnostic.Parser
import DisasmLens.Toolchain
import DisasmLens.Watcher

/-!
# Sessions

A session keeps the latest build of one source file. It builds anew when asked, when the user's arguments
change and when the source file is saved, and publishes the build each time, whether it succeeded or not.

Building never breaks a session off: a fault on the way becomes the report of the build, and the listing of
an earlier build is dropped with it.
-/

namespace DisasmLens

structure Session where
  build : Build
  toolchain : Toolchain
  watcher : Watcher := {}
  flags : List Text := []
  isSubscribed : Bool := true
  published : List Build := []

/-- Filters a listing for a target. A listing that ends in a label is warned about. -/
def Listing.processLogged (target whole : Text) : Action (Text × Summary) := do
  match Listing.danglingLabel? whole.lines with
  | some line =>
    log .warning .listing ("label on last line of objdump output is unexpected: " ++ Quoted.ofText line)
  | none => pure ()
  return Listing.process target whole

namespace Session

/-- A session for the source file at a path, with the tools of the preferences. -/
def load (source : Text) : Attempt Session := do
  let toolchain ← Toolchain.load
  return { build := { source }, toolchain }

/-! ### Building -/

def publish (s : Session) : Session :=
  if s.isSubscribed then { s with published := s.published ++ [s.build] } else s

def faultReport (f : Fault) : Text := "Internal Engine Error: " ++ f.message

def fail (s : Session) (f : Fault) : Action Session := do
  log .error .session "Refresh failed"
  let build := { s.build with report := faultReport f }
  return { s with build := build.withoutListing (← get).wallClock }

def succeed (s : Session) (whole : Text) : Action Session := do
  let (listing, summary) ← Listing.processLogged s.build.source whole
  let build := s.build.withListing listing summary whole (← get).wallClock
  log .info .session
    ("Kept " ++ Text.decimalInt summary.instructions ++ " instructions under "
      ++ Text.decimalInt summary.labels ++ " labels (" ++ Text.decimalInt build.hiddenLines
      ++ " lines hidden)")
  return { s with build }

def drop (s : Session) : Action Session := do
  log .warning .session ("No disassembly produced for " ++ s.build.source)
  return { s with build := s.build.withoutListing (← get).wallClock }

/-- The session with what a build gave, its listing and its report. -/
def conclude (s : Session) (whole report : Text) : Action Session := do
  let s := { s with build := { s.build with report, flags := s.flags } }
  match Diagnostic.parseAll report with
  | .error numeral => s.fail (.longNumeral numeral)
  | .ok diagnostics =>
    let s := { s with build := { s.build with diagnostics } }
    if whole = [] then s.drop else s.succeed whole

def rebuild (s : Session) : Action Session := do
  match ← (readFile s.build.source).run with
  | .error f => s.fail f
  | .ok code =>
    let s := { s with build := s.build.withCode code }
    match ← (s.toolchain.compile s.build.source s.flags).run with
    | .error f => s.fail f
    | .ok (whole, report) => s.conclude whole report

def announce (s : Session) : Action Unit :=
  log .info .session ("Refreshing " ++ s.build.source ++ " with flags " ++ Quoted.ofTexts s.flags)

def refresh (s : Session) : Action Session := do
  s.announce
  return (← s.rebuild).publish

/-! ### Steps -/

def setFlags (s : Session) (flags : List Text) : Action Session := refresh { s with flags }

/-- Takes another source file; the build stays until the next one. -/
def setSource (s : Session) (source : Text) : Session := { s with build := { s.build with source } }

/-- Takes another compiler, unless its name cannot be looked up. -/
def useCompiler (s : Session) (name : Json) : Action (Session × Option Fault) := do
  match ← (s.toolchain.useCompiler name).run with
  | .ok toolchain => return ({ s with toolchain }, none)
  | .error f => return (s, some f)

/-- Builds and begins to watch the source file. If that cannot be watched, the build stands. -/
def start (s : Session) : Action (Session × Option Fault) := do
  let s ← s.refresh
  match ← (s.watcher.start s.build.source).run with
  | .ok watcher => return ({ s with watcher }, none)
  | .error f => return (s, some f)

def stop (s : Session) : Action Session :=
  return { s with watcher := ← s.watcher.stop }

/-- Takes an event in, and builds anew if the source file was saved. -/
def deliver (s : Session) (event : FileEvent) : Action Session := do
  let (watcher, saved) ← s.watcher.deliver event
  let s := { s with watcher }
  if saved.isSome then s.refresh else return s

end Session

end DisasmLens
