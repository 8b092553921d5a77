import DisasmLens.Host.Basic
import DisasmLens.Json.Printer

/-!
# Settings

The user's preferences are the fields of a JSON object in a file of the home directory, layered over the
defaults. A file that cannot be opened, or holds no JSON value, leaves the defaults and is warned about; one
that holds another value than an object leaves them without a word.

A change is kept even if it cannot be saved (`Settings.change`).
-/

namespace DisasmLens

/-- The preferences, by name, in the order in which they are saved. -/
structure Settings where
  fields : Fields

namespace Settings

/-! ### Names -/

def compilerName : List Rune := Text.runes "compiler".toList

def disassemblerName : List Rune := Text.runes "objdump".toList

def intelName : List Rune := Text.runes "intel_syntax".toList

def flagsName : List Rune := Text.runes "flags".toList

def defaultCompiler : Json := .ofText "jai".toList

def defaultDisassembler : Json := .ofText "objdump".toList

def defaults : Settings where
  fields :=
    [(compilerName, defaultCompiler), (disassemblerName, defaultDisassembler),
     (intelName, .bool true), (flagsName, .array [])]

/-! ### Values -/

/-- The value of a preference, or a default for one that is not there. -/
def getD (s : Settings) (name : List Rune) (default : Json) : Json := (s.fields.get? name).getD default

def insert (s : Settings) (name : List Rune) (value : Json) : Settings := ⟨s.fields.insert name value⟩

/-- Adds an argument to the compiler's arguments, if these are a list. -/
def appendFlag (s : Settings) (value : Json) : Except Fault Settings :=
  match s.getD flagsName .null with
  | .array items => .ok (s.insert flagsName (.array (items ++ [value])))
  | v => .error (.notGrowable v.kind)

/-! ### The file -/

def directory (h : Host) : Text := Path.join h.homeDirectory ".jaibolt".toList

def path (h : Host) : Text := Path.join (directory h) "config.json".toList

def ignoring (path reason : Text) : Attempt Settings := do
  log .warning .settings ("Ignoring unreadable config " ++ path ++ ": " ++ reason)
  return defaults

def malformedMessage (defect : Json.Defect) (line column position : Nat) : Text :=
  defect.message ++ ": line " ++ Text.decimal line ++ " column " ++ Text.decimal column ++ " (char "
    ++ Text.decimal position ++ ")"

def ofFile (path content : Text) : Attempt Settings := do
  match Json.parse (← get).maxDepth content with
  | .ok (.object fields) => return ⟨Fields.layer defaults.fields fields⟩
  | .ok _ => return defaults
  | .error (.malformed defect line column position) =>
    ignoring path (malformedMessage defect line column position)
  | .error (.longInteger numeral) => throw (.longNumeral numeral)
  | .error (.deepNesting innermost) => throw (.deepNesting innermost)

/-- Reads the preferences. The directory of the file is made if need be. -/
def load : Attempt Settings := do
  let h ← get
  if !h.hasHome then throw .noHome
  let path := path h
  makeDirectory (directory h)
  if !(← get).hasEntry path then return defaults
  match ← (readFile path).result with
  | .ok content => ofFile path content
  | .error f => if f.isSystem then ignoring path f.message else throw f

/-- Writes the preferences. They have been read before, so that the home directory is known. -/
def save (s : Settings) : Attempt Unit := do
  let h ← get
  makeDirectory (directory h)
  writeFile (path h) (Json.indented (.object s.fields))

/-- Gives a preference a value and saves them all. The changed preferences stand whether or not that
succeeds. -/
def change (s : Settings) (name : List Rune) (value : Json) : Action (Settings × Except Fault Unit) := do
  let s := s.insert name value
  let saved ← (save s).run
  return (s, saved)

end Settings

end DisasmLens
