import DisasmLens.CommandLine.Arguments
import DisasmLens.Text.Quoted

/-!
# Usage

The texts that explain the command line: the usage, the help, and errors in words.
-/

namespace DisasmLens.CommandLine

def programName : Text := "jaibolt"

def programVersion : Text := "0.1.0"

def usage : Text :=
  "usage: jaibolt [-h] [--dump PATH] [--print] [--flags ARGS] [--version] [-v]\n" ++
  "               [file]\n"

def optionsHelp : Text :=
  "  -h, --help     show this help message and exit\n" ++
  "  --dump PATH    Filter an existing `objdump -l -d` listing instead of\n" ++
  "                 compiling ('-' reads stdin)\n" ++
  "  --print        Compile once, print the filtered disassembly and exit\n" ++
  "  --flags ARGS   Extra arguments for the jai compiler. Attach values that\n" ++
  "                 start with a dash: --flags=-release, --flags=\"-release -x64\"\n" ++
  "  --version      Print the jaibolt and jai compiler versions and exit\n" ++
  "  -v, --verbose  Enable debug logging\n"

def help : Text :=
  usage ++ "\nJaiBolt: Offline Jai Disassembly Explorer\n\npositional arguments:\n" ++
  "  file           Jai source file to watch (the target path with --dump)\n\noptions:\n" ++ optionsHelp

namespace UsageError

def message : UsageError → Text
  | ambiguous argument names =>
    "ambiguous option: " ++ argument ++ " could match " ++ Text.joinWith ", " names
  | missingValue option => "argument " ++ (Switch.slot option).label ++ ": expected one argument"
  | strayValue option value =>
    "argument " ++ (Switch.toggle option).label ++ ": ignored explicit argument " ++ Quoted.ofText value
  | leftovers arguments => "unrecognized arguments: " ++ Text.joinWith [' '] arguments

def report (e : UsageError) : Text := usage ++ programName ++ ": error: " ++ e.message ++ "\n"

end UsageError

example : (UsageError.strayValue .verbose ['x']).message
    = "argument -v/--verbose: ignored explicit argument 'x'".toList := by decide +kernel

end DisasmLens.CommandLine
