import DisasmLens.Markup.Styled
import DisasmLens.Session

/-!
# The terminal

What a run of the program has around it: the host, its input, and what it has written so far. A `Command` is
a piece of such a run. It may end the run, on purpose with an exit code or by a fault that nothing catches;
what was written before stays written.
-/

namespace DisasmLens.CommandLine

inductive Output where
  | out (text : Text)
  | err (text : Text)
  | listing (listing : Styled)
deriving DecidableEq, Repr

inductive LogPlace where
  | file
  | console
deriving DecidableEq, Repr

/-- The least level logged there, unless all messages are wanted. -/
def LogPlace.level : LogPlace → Level
  | file => .info
  | console => .warning

structure Logging where
  place : LogPlace
  level : Level
deriving DecidableEq, Repr

inductive ScreenEnd where
  | closed
  | interrupted
  | failed (message : Text)
deriving DecidableEq, Repr

/-- What a run of the program has around it: how the screen will be left, if it is opened, what was written, oldest
first, how messages are logged, once that is settled, and the session that the screen was opened on, if it was. -/
structure Terminal where
  host : Host := {}
  input : List UInt8 := []
  screenEnd : ScreenEnd := .closed
  output : List Output := []
  logging : Option Logging := none
  screen : Option Session := none

inductive Ending where
  | exit (code : Nat)
  | fault (fault : Fault)
deriving DecidableEq, Repr

abbrev Command (α : Type) := ExceptT Ending (StateM Terminal) α

namespace Command

def exit {α : Type} (code : Nat) : Command α := throw (.exit code)

def write (o : Output) : Command Unit := modify fun t => { t with output := t.output ++ [o] }

def print (lines : List Text) : Command Unit := lines.forM fun l => write (.out (l ++ ['\n']))

def abort {α : Type} (lines : List Text) : Command α := do
  print lines
  exit 1

def act {α : Type} (a : Action α) : Command α := do
  let t ← get
  let (result, host) := a.run t.host
  set { t with host }
  return result

def attempt {α : Type} (a : Attempt α) : Command (Except Fault α) := act a.run

def require {α : Type} : Except Fault α → Command α
  | .ok result => return result
  | .error f => throw (.fault f)

def logFile : Text := "/tmp/jaibolt.log"

/-- Settles how messages are logged. The file for them is opened at once. -/
def logTo (place : LogPlace) (isVerbose : Bool) : Command Unit := do
  if place = .file then require (← attempt (openForAdditions logFile))
  let level := if isVerbose then .debug else place.level
  modify fun t => { t with logging := some ⟨place, level⟩, host.threshold := level }

end Command

end DisasmLens.CommandLine
