import DisasmLens.Text.Basic
import DisasmLens.Text.DecimalDigit

/-!
# Arguments of the command line

The arguments are read in two passes. The first one tells options from words by the look of each argument
alone: a name of an option, the start of one long name only, a short name with more behind it. The second
one goes through the result once; a `Reading` holds what it has found, and `Reading.step` takes in one item.

The first word is the file. Behind a divider `--` there are words only, and the divider itself goes with the
file if it stands next to it. What has no place is left over, and it is an error to leave anything over.
-/

namespace DisasmLens.CommandLine

/-! ### Options -/

inductive Toggle where
  | help | print | version | verbose
deriving DecidableEq, Repr

inductive Slot where
  | dump
  | flags
deriving DecidableEq, Repr

inductive Switch where
  | toggle (t : Toggle)
  | slot (s : Slot)
deriving DecidableEq, Repr

namespace Switch

def names : List (Text × Switch) :=
  [("-h", .toggle .help), ("--help", .toggle .help), ("--dump", .slot .dump), ("--print", .toggle .print),
   ("--flags", .slot .flags), ("--version", .toggle .version), ("-v", .toggle .verbose),
   ("--verbose", .toggle .verbose)]

def named? (name : Text) : Option Switch := names.lookup name

def label (s : Switch) : Text := Text.joinWith ['/'] ((names.filter (·.2 = s)).map Prod.fst)

end Switch

/-! ### Errors -/

inductive UsageError where
  | ambiguous (argument : Text) (names : List Text)
  | missingValue (option : Slot)
  | strayValue (option : Toggle) (value : Text)
  | leftovers (arguments : List Text)
deriving DecidableEq, Repr

inductive Stop where
  | help
  | usage (error : UsageError)
deriving DecidableEq, Repr

/-! ### Items -/

/-- What an argument is by its looks. It may look like an option of which there is none. Behind the divider are words
only. -/
inductive Item where
  | switch (option : Switch) (isShort : Bool) (value : Option Text)
  | unknown (argument : Text)
  | word (argument : Text)
  | divider
deriving DecidableEq, Repr

def dividerText : Text := "--"

def splitValue (argument : Text) : Text × Option Text :=
  match argument.dropWhile (· ≠ '=') with
  | [] => (argument, none)
  | _ :: value => (argument.takeWhile (· ≠ '='), some value)

def isShortName (name : Text) : Bool := !dividerText.isPrefixOf name

/-- Whether an argument is a negative number in decimal notation, such as `-5` or `-.5`. One line feed may
follow. -/
def isNegativeNumber : Text → Bool
  | '-' :: rest =>
    let number := if rest.getLast? = some '\n' then rest.dropLast else rest
    match number.dropWhile Text.isDecimalDigit with
    | [] => number ≠ []
    | '.' :: digits => digits ≠ [] && digits.all Text.isDecimalDigit
    | _ => false
  | _ => false

/-- The names that an argument may stand for if it is no name itself, each with its option and the attached
value: a long name by its start, a short one with the value right behind it. -/
def candidates (argument : Text) : List (Text × Switch × Option Text) :=
  if dividerText.isPrefixOf argument then
    let (start, value) := splitValue argument
    (Switch.names.filter fun n => start.isPrefixOf n.1).map fun n => (n.1, n.2, value)
  else
    (Switch.names.filter fun n => n.1 = argument.take 2).map fun n => (n.1, n.2, some (argument.drop 2))

/-- What an argument before the divider is. A word starts with no hyphen, or is a lone hyphen or a negative
number, or has a space in it and is the start of no option. -/
def Item.ofArgument (argument : Text) : Except UsageError Item :=
  if argument.head? ≠ some '-' ∨ argument = ['-'] then .ok (.word argument)
  else
    let (name, value) := splitValue argument
    match Switch.named? name with
    | some option => .ok (.switch option (isShortName name) value)
    | none =>
      match candidates argument with
      | [] =>
        if isNegativeNumber argument ∨ ' ' ∈ argument then .ok (.word argument) else .ok (.unknown argument)
      | [(name, option, value)] => .ok (.switch option (isShortName name) value)
      | several => .error (.ambiguous argument (several.map Prod.fst))

def Item.ofArguments : List Text → Except UsageError (List Item)
  | [] => .ok []
  | argument :: rest =>
    if argument = dividerText then .ok (.divider :: rest.map .word)
    else do
      let item ← Item.ofArgument argument
      let items ← Item.ofArguments rest
      return item :: items

/-! ### Requests -/

/-- What the arguments ask for. There is no line of flags if the option has the divider for its value. -/
structure Request where
  file : Option Text := none
  dump : Option Text := none
  flags : Option Text := some []
  printsOnce : Bool := false
  showsVersion : Bool := false
  isVerbose : Bool := false
deriving DecidableEq, Repr

namespace Request

/-- Gives an option a value. The divider is no value. -/
def give (r : Request) (option : Slot) (value : Text) : Request :=
  let value := if value = dividerText then none else some value
  match option with
  | .dump => { r with dump := value }
  | .flags => { r with flags := value }

/-- Turns an option on. The help ends the reading. -/
def turnOn (r : Request) : Toggle → Except Stop Request
  | .help => .error .help
  | .print => .ok { r with printsOnce := true }
  | .version => .ok { r with showsVersion := true }
  | .verbose => .ok { r with isVerbose := true }

end Request

/-! ### Reading -/

/-- What has become of the place for the file. Behind a divider the next word is the file, and a divider may follow the
argument that was the file just now. -/
inductive Place where
  | free
  | divided
  | justTaken
  | taken
deriving DecidableEq, Repr

structure Reading where
  request : Request := {}
  place : Place := .free
  awaiting : Option Slot := none
  leftovers : List Text := []
deriving DecidableEq, Repr

namespace Reading

/-- The toggles of a short name with others right behind it. -/
def cluster (first : Toggle) : Text → Except UsageError (List Toggle)
  | [] => .ok [first]
  | c :: rest =>
    match Switch.named? ['-', c] with
    | some (.toggle next) => (cluster next rest).map (first :: ·)
    | _ => .error (.strayValue first (c :: rest))

/-- The toggles of one argument. A value can only be more short names, behind a short one. -/
def toggles (first : Toggle) (isShort : Bool) : Option Text → Except UsageError (List Toggle)
  | none => .ok [first]
  | some value => if isShort ∧ value ≠ [] then cluster first value else .error (.strayValue first value)

/-- A divider can no longer follow the file. -/
def settle (r : Reading) : Reading :=
  if r.place = .justTaken then { r with place := .taken } else r

def leave (r : Reading) (argument : Text) : Reading :=
  { r.settle with leftovers := r.leftovers ++ [argument] }

def word (r : Reading) (w : Text) : Reading :=
  match r.place with
  | .free => { r with request := { r.request with file := some w }, place := .justTaken }
  | .divided => { r with request := { r.request with file := some w }, place := .taken }
  | .justTaken | .taken => r.leave w

def divide (r : Reading) : Reading :=
  match r.place with
  | .free => { r with place := .divided }
  | .justTaken => { r with place := .taken }
  | .divided | .taken => r.leave dividerText

def switch (r : Reading) (option : Switch) (isShort : Bool) (value : Option Text) : Except Stop Reading := do
  match option with
  | .toggle t =>
    let ts ← (toggles t isShort value).mapError .usage
    let request ← ts.foldlM Request.turnOn r.request
    return { r.settle with request }
  | .slot s =>
    match value with
    | some v => return { r.settle with request := r.request.give s v }
    | none => return { r.settle with awaiting := some s }

def step (r : Reading) (item : Item) : Except Stop Reading :=
  match r.awaiting, item with
  | some s, .word w => .ok { r with request := r.request.give s w, awaiting := none }
  | some s, _ => .error (.usage (.missingValue s))
  | none, .word w => .ok (r.word w)
  | none, .divider => .ok r.divide
  | none, .unknown argument => .ok (r.leave argument)
  | none, .switch option isShort value => r.switch option isShort value

def conclude (r : Reading) : Except Stop Request :=
  match r.awaiting with
  | some s => .error (.usage (.missingValue s))
  | none => if r.leftovers = [] then .ok r.request else .error (.usage (.leftovers r.leftovers))

end Reading

def Request.ofArguments (arguments : List Text) : Except Stop Request := do
  let items ← (Item.ofArguments arguments).mapError .usage
  let reading ← items.foldlM Reading.step {}
  reading.conclude

example :
    (Request.ofArguments ["--pr".toList, "-v".toList, "--flags=-x y".toList, "--".toList, "-a".toList]).toOption
      = some { file := some ['-', 'a'], flags := some ['-', 'x', ' ', 'y'], printsOnce := true,
               isVerbose := true } := by
  decide

end DisasmLens.CommandLine
