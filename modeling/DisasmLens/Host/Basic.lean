import DisasmLens.Host.Files
import DisasmLens.Text.Boundary

/-!
# The host

What the program sees of the machine that it runs on: files, the tools on the search path, what the next runs
of tools will answer, and two clocks. The journal holds what the program did to its surroundings: tools run,
actions on the observer of a directory, and messages logged.

An `Action` changes the host and an `Attempt` may also be broken off by a fault; what was done before the
fault stays done.
-/

namespace DisasmLens

/-! ### Tools -/

/-- What a run of a tool answers, with the empty files that it leaves, and how it failed to run, if it did. -/
structure RunAnswer where
  code : Int := 0
  output : Text := []
  errors : Text := []
  creates : List Text := []
  failure : Option (RunFailure × Text) := none
deriving DecidableEq, Repr

/-- A run of a tool: its command, and its working directory if one was given. -/
structure Run where
  command : List Json
  directory : Option Text

/-! ### Observation and logging -/

/-- An action on the observer of a directory. What lies deeper than a directory that is scheduled is not observed. An
observer that is told to stop is waited for by a join. -/
inductive ObserverAction where
  | schedule (directory : Text)
  | start
  | stop
  | join
deriving DecidableEq, Repr

inductive Level where
  | debug | info | warning | error
deriving DecidableEq, Repr

def Level.weight : Level → Nat
  | debug => 0
  | info => 1
  | warning => 2
  | error => 3

inductive Origin where
  | listing | settings | toolchain | watcher | session
deriving DecidableEq, Repr

structure LogRecord where
  level : Level
  origin : Origin
  message : Text
deriving DecidableEq, Repr

structure Journal where
  runs : List Run := []
  observer : List ObserverAction := []
  logs : List LogRecord := []

/-! ### Time -/

/-- A reading of the steady clock, in ticks of `2 ^ -1074` seconds. Every binary floating point number of
seconds is a whole number of ticks. -/
abbrev Instant := Int

namespace Instant

def perSecond : Int := Nat.pow 2 1074

/-- The time from one reading to another is rounded to the nearest binary floating point number before it is
compared with half a second. The numbers above one half are `2 ^ -53` apart and a tie goes to one half, whose
mantissa is even, so exactly the differences up to `1/2 + 2 ^ -54` count as half a second at most. -/
def withinHalfSecond (earlier later : Instant) : Bool :=
  later - earlier ≤ (Nat.pow 2 1073 + Nat.pow 2 1020 : Nat)

end Instant

/-! ### The host -/

/-- What the program sees of its machine: the home directory as the machine tells it, the tools on the search path, what
the next runs of tools will answer, a steady clock, and the clock on the wall in seconds. A run beyond the answers ends
well and without a word.

A search path that is stood in for by a table may take any name, and that of a machine refuses what is no string. Arrays
and objects may stand `maxDepth` deep inside each other for the call stack to have room for their reader. -/
structure Host where
  home : Text := "/home/u"
  directory : Text := "/work"
  files : Files := []
  tools : List (Text × Text) := []
  takesAnyName : Bool := false
  answers : List RunAnswer := []
  instant : Instant := 0
  wallClock : Int := 1
  threshold : Level := .debug
  maxDepth : Nat := 985
  journal : Journal := {}

abbrev Action (α : Type) := StateM Host α

abbrev Attempt (α : Type) := ExceptT Fault (StateM Host) α

namespace Host

def resolve (h : Host) (path : Text) : AbsolutePath := Path.resolve h.directory path

def locate (h : Host) (path : Text) : Location := (h.resolve path).location

def entry? (h : Host) (path : Text) : Option Entry := h.files.get? (h.locate path)

def hasEntry (h : Host) (path : Text) : Bool := (h.entry? path).isSome

def withEntry (h : Host) (path : Text) (e : Entry) : Host :=
  { h with files := h.files.insert (h.locate path) e }

/-- Makes a directory at a path, with the directories on the way there, unless something is there. -/
def withDirectory (h : Host) (path : Text) : Host :=
  { h with files := h.files.insertDirectory (h.locate path) }

def withOwnDirectories (h : Host) : Host := (h.withDirectory h.home).withDirectory h.directory

def withoutEntry (h : Host) (path : Text) : Host :=
  { h with files := h.files.erase (h.locate path) }

/-- The path of the home directory. Slashes at its end do not count, and a path that is nothing else is that of
the root. -/
def homeDirectory (h : Host) : Text :=
  match (h.home.reverse.dropWhile (· = '/')).reverse with
  | [] => ['/']
  | path => path

/-- Whether the home directory is known: a tilde at the start of its path stands for a directory that is
not. -/
def hasHome (h : Host) : Bool := h.homeDirectory.head? ≠ some '~'

def hasParent (h : Host) (path : Text) : Bool :=
  h.files.get? (h.locate path).parent = some .directory

def which? (h : Host) : Json → Except Fault (Option Text)
  | .string s => .ok ((Text.ofRunes s).toOption.bind fun name => h.tools.lookup name)
  | v => if h.takesAnyName then .ok none else .error (.notAName v.kind)

def bytes (h : Host) (path : Text) : Except Fault (List UInt8) :=
  match h.entry? path with
  | some (.file bytes) => .ok bytes
  | some .directory => .error (.directory path)
  | some .sealed => .error (.denied path)
  | none => .error (.missing path)

end Host

def readText (bytes : List UInt8) : Except Fault Text :=
  match Utf8.decode bytes with
  | .ok t => .ok (Text.normalizeNewlines t)
  | .error f => .error (.encoding f)

def Host.text (h : Host) (path : Text) : Except Fault Text := h.bytes path >>= readText

/-! ### Actions -/

theorem Action.run_bind {α β : Type} (a : Action α) (f : α → Action β) (h : Host) :
    (a >>= f).run h = (f (a.run h).1).run (a.run h).2 := rfl

theorem Action.run_pure {α : Type} (a : α) (h : Host) : (pure a : Action α).run h = (a, h) := rfl

theorem Action.run_get (h : Host) : (get : Action Host).run h = (h, h) := rfl

theorem Attempt.run_get (h : Host) : (get : Attempt Host).run.run h = (.ok h, h) := rfl

/-- Behind a part that succeeds an attempt goes on with its result. -/
theorem Attempt.run_bind_of_eq_ok {α β : Type} {a : Attempt α} {h h' : Host} {x : α}
    (ha : a.run.run h = (.ok x, h')) (f : α → Attempt β) : (a >>= f).run.run h = (f x).run.run h' := by
  rw [ExceptT.run_bind, Action.run_bind, ha]

theorem Attempt.run_bind_of_eq_error {α β : Type} {a : Attempt α} {h h' : Host} {e : Fault}
    (ha : a.run.run h = (.error e, h')) (f : α → Attempt β) : (a >>= f).run.run h = (.error e, h') := by
  rw [ExceptT.run_bind, Action.run_bind, ha]
  rfl

theorem Attempt.run_bind_eq_ok {α β : Type} {a : Attempt α} {f : α → Attempt β} {h h' : Host} {b : β}
    (hr : (a >>= f).run.run h = (.ok b, h')) :
    ∃ x h₁, a.run.run h = (.ok x, h₁) ∧ (f x).run.run h₁ = (.ok b, h') := by
  rw [ExceptT.run_bind, Action.run_bind] at hr
  cases ha : a.run.run h with
  | mk r h₁ =>
    rw [ha] at hr
    cases r with
    | error e => cases hr
    | ok x => exact ⟨x, h₁, rfl, hr⟩

def log (level : Level) (origin : Origin) (message : Text) : Action Unit :=
  modify fun h =>
    if h.threshold.weight ≤ level.weight then
      { h with journal.logs := h.journal.logs ++ [⟨level, origin, message⟩] }
    else h

theorem snd_log (level : Level) (origin : Origin) (message : Text) (h : Host) :
    ∃ logs, ((log level origin message).run h).2 = { h with journal.logs := logs } := by
  by_cases hl : h.threshold.weight ≤ level.weight
  · exact ⟨_, if_pos hl⟩
  · exact ⟨h.journal.logs, if_neg hl⟩

theorem log_wallClock (level : Level) (origin : Origin) (message : Text) (h : Host) :
    ((log level origin message).run h).2.wallClock = h.wallClock := by
  obtain ⟨logs, hlogs⟩ := snd_log level origin message h
  rw [hlogs]

def observe (action : ObserverAction) : Action Unit :=
  modify fun h => { h with journal.observer := h.journal.observer ++ [action] }

def Attempt.ofExcept {α : Type} (e : Except Fault α) : Attempt α :=
  match e with
  | .ok a => pure a
  | .error f => throw f

theorem Attempt.run_ofExcept {α : Type} (e : Except Fault α) (h : Host) : (ofExcept e).run.run h = (e, h) := by
  cases e <;> rfl

theorem Attempt.run_ofExcept_bind {α β : Type} (e : Except Fault α) (f : α → Attempt β) (h : Host) :
    (ofExcept e >>= f).run.run h = match e with
      | .ok x => (f x).run.run h
      | .error fault => (.error fault, h) := by
  cases e <;> rfl

/-- Lets the fault of an attempt be its result, so that the work goes on. -/
def Attempt.result {α : Type} (a : Attempt α) : Attempt (Except Fault α) :=
  tryCatch (Except.ok <$> a) fun f => pure (.error f)

theorem Attempt.run_result {α : Type} (a : Attempt α) (h : Host) :
    a.result.run.run h = (.ok (a.run.run h).1, (a.run.run h).2) := by
  rw [result, ExceptT.run_tryCatch, ExceptT.run_map, Action.run_bind, StateT.run_map]
  rcases a.run.run h with ⟨_ | _, _⟩ <;> rfl

def readFile (path : Text) : Attempt Text := do
  let h ← get
  Attempt.ofExcept (h.text path)

theorem run_readFile (path : Text) (h : Host) : (readFile path).run.run h = (h.text path, h) :=
  Attempt.run_ofExcept (h.text path) h

/-- Makes a directory where there is one to hold it, unless it is there. -/
def makeDirectoryHere (path : Text) : Attempt Unit := do
  let h ← get
  match h.entry? path with
  | some .directory => pure ()
  | some _ => throw (.occupied path)
  | none => if h.hasParent path then set (h.withEntry path .directory) else throw (.missing path)

/-- Makes a directory unless it is there. If there is none to hold it, then the one at the path above is made
before. That need not be the one that holds it, since a path may end in two dots. -/
def makeDirectoryBelow : (above : List Text) → (path : Text) → Attempt Unit
  | [], path => makeDirectoryHere path
  | next :: above, path => do
    let h ← get
    if h.hasEntry path ∨ h.hasParent path then makeDirectoryHere path
    else
      makeDirectoryBelow above next
      makeDirectoryHere path

/-- Makes a directory unless it is there, and those above it. -/
def makeDirectory (path : Text) : Attempt Unit := makeDirectoryBelow (Path.above path) path

def writeFile (path : Text) (content : Text) : Attempt Unit := do
  let h ← get
  match h.entry? path with
  | some .directory => throw (.directory path)
  | some .sealed => throw (.denied path)
  | _ => set (h.withEntry path (.file (Utf8.encode content)))

def Host.additionFault? (h : Host) (path : Text) : Option Fault :=
  match h.entry? path with
  | some (.file _) => none
  | some .directory => some (.directory path)
  | some .sealed => some (.denied path)
  | none => if h.hasParent path then none else some (.missing path)

/-- Opens a file for additions. It is made if it is not there. -/
def openForAdditions (path : Text) : Attempt Unit := do
  let h ← get
  match h.additionFault? path with
  | some f => throw f
  | none => unless h.hasEntry path do set (h.withEntry path (.file []))

/-- Runs a tool: takes the next answer, leaves its files, and gives the answer unless the run failed. -/
def runTool (command : List Json) (directory : Option Text) : Attempt RunAnswer := do
  let h ← get
  let answer := h.answers.head?.getD {}
  let h := { h with
    answers := h.answers.tail
    journal.runs := h.journal.runs ++ [Run.mk command directory] }
  set (answer.creates.foldl (fun h path => h.withEntry path (.file [])) h)
  match answer.failure with
  | some (failure, message) => throw (.run failure message)
  | none => return answer

end DisasmLens
