import DisasmLens.Json.Display
import DisasmLens.Settings
import DisasmLens.Text.Blank

/-!
# The toolchain

The compiler makes an executable of a source file, and the disassembler a listing of the executable. Both
are named by preferences and looked up on the search path. A name that is no string breaks the search off; a tool
that is not found is warned about at once and reported when it is needed.

`Toolchain.compile` gives a listing and a report. The listing is empty unless both tools ran to a good end,
and the report then says why.
-/

namespace DisasmLens

/-- A tool by the name that the preferences give, usually a string, with its path if the search path has it. -/
structure Tool where
  name : Json
  path : Option Text

namespace Tool

def find (h : Host) (name : Json) : Except Fault Tool := (h.which? name).map fun path => { name, path }

/-- The path of a tool that was found. An empty path counts as none. -/
def located? (t : Tool) : Option Text := t.path.filter (· ≠ [])

/-- How a command begins that runs the tool: its path, or else its name. -/
def head (t : Tool) : Json :=
  match t.located? with
  | some p => .ofText p
  | none => t.name

end Tool

structure Toolchain where
  settings : Settings
  compiler : Tool
  disassembler : Tool

namespace Toolchain

/-! ### Choice of tools -/

def locate (role : Text) (name : Json) : Attempt Tool := do
  let tool ← Attempt.ofExcept (Tool.find (← get) name)
  if tool.located?.isNone then
    log .warning .toolchain (role ++ " '" ++ name.display ++ "' not found.")
  return tool

def locateCompiler (name : Json) : Attempt Tool := locate "Compiler" name

def locateDisassembler (name : Json) : Attempt Tool := locate "Disassembler" name

def ofSettings (s : Settings) : Attempt Toolchain := do
  let compiler ← locateCompiler (s.getD Settings.compilerName Settings.defaultCompiler)
  let disassembler ← locateDisassembler (s.getD Settings.disassemblerName Settings.defaultDisassembler)
  return ⟨s, compiler, disassembler⟩

def load : Attempt Toolchain := do
  let s ← Settings.load
  ofSettings s

def useCompiler (t : Toolchain) (name : Json) : Attempt Toolchain :=
  return { t with compiler := ← locateCompiler name }

def useDisassembler (t : Toolchain) (name : Json) : Attempt Toolchain :=
  return { t with disassembler := ← locateDisassembler name }

/-! ### Version -/

/-- The first line of what a tool said about its version: of its output, or of its error output if that is
empty. -/
def versionLine? (output errors : Text) : Option Text :=
  (Text.boundaryLines (Text.strip (if output = [] then errors else output))).head?

def version (t : Toolchain) : Attempt (Option Text) := do
  match t.compiler.located? with
  | none => return none
  | some path =>
    match ← (runTool [.ofText path, .ofText "-version".toList] none).result with
    | .ok answer => return versionLine? answer.output answer.errors
    | .error f =>
      if f.isSystem then
        log .warning .toolchain ("Could not query compiler version: " ++ f.message)
        return none
      else throw f

/-! ### Commands -/

/-- A value as a list of arguments: the items of an array, the characters of a string, the names of an
object. -/
def arguments : Json → Except Fault (List Json)
  | .array items => .ok items
  | .string s => .ok (s.map fun r => .string [r])
  | .object fields => .ok (Fields.names fields |>.map .string)
  | v => .error (.notAList v.kind)

def settledFlags (t : Toolchain) : Except Fault (List Json) :=
  arguments (t.settings.getD Settings.flagsName (.array []))

/-- The command that compiles a source file: the arguments of the preferences come first, then those of
the user, then the source file. -/
def buildCommand (t : Toolchain) (source : Text) (flags : List Text) : Except Fault (List Json) := do
  let settled ← t.settledFlags
  return t.compiler.head :: settled ++ flags.map .ofText ++ [.ofText source]

def disassembleCommand (t : Toolchain) (program : Text) : List Json :=
  let style := if (t.settings.getD Settings.intelName (.bool true)).isTruthy then ["-M", "intel"] else []
  t.disassembler.head :: (["-l", "-d"] ++ style).map (fun s => .ofText s.toList) ++ [.ofText program]

/-- The parts of a command, the first of which stands at an index, as texts. -/
def commandTexts (index : Nat) : List Json → Except Fault (List Text)
  | [] => .ok []
  | .string s :: rest => (commandTexts (index + 1) rest).map (Text.shown s :: ·)
  | v :: _ => .error (.notAText index v.kind)

/-! ### Building -/

def run (t : Toolchain) (command : List Json) (source : AbsolutePath) : Attempt (Text × Text) := do
  let build ← runTool command (some source.parent.text)
  let report := if build.errors = [] then build.output else build.errors
  if build.code ≠ 0 then return ([], report)
  let program := Path.executable source.text
  if !(← get).hasEntry program then
    return ([], "Expected executable '" ++ program ++ "' was not produced.\n" ++ report)
  if t.disassembler.located?.isNone then
    return ([], "Error: " ++ t.disassembler.name.display ++ " not installed.")
  let dump ← runTool (t.disassembleCommand program) none
  if dump.code ≠ 0 then return ([], "objdump error: " ++ dump.errors)
  return (dump.output, report)

def compile (t : Toolchain) (source : Text) (flags : List Text) : Attempt (Text × Text) := do
  if t.compiler.located?.isNone then
    return ([], "Compiler '" ++ t.compiler.name.display ++ "' not configured or not found.")
  let path := (← get).resolve source
  let command ← Attempt.ofExcept (t.buildCommand path.text flags)
  let shown ← Attempt.ofExcept (commandTexts 0 command)
  log .debug .toolchain ("Compiling: " ++ Text.joinWith [' '] shown)
  match ← (t.run command path).result with
  | .ok built => return built
  | .error f =>
    if f.isReported then
      log .error .toolchain ("Compilation of " ++ source ++ " failed")
      return ([], "Jai compilation error: " ++ f.message)
    else throw f

end Toolchain

end DisasmLens
