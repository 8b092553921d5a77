import DisasmLens.Fault

/-!
# The editor of the compiler's arguments

The user edits the arguments as a line of shell words. A line that has no words is complained about, and the
editor stays open for it to be mended; any other line is taken over and closes the editor. There is a
complaint only while the editor is open.
-/

namespace DisasmLens

structure FlagsEditor where
  isOpen : Bool := false
  field : Text := []
  complaint : Option ShellWords.Defect := none
deriving DecidableEq, Repr

namespace FlagsEditor

/-- Opens the editor on arguments. A complaint stays. -/
def edit (e : FlagsEditor) (flags : List Text) : FlagsEditor :=
  { e with isOpen := true, field := ShellWords.join flags }

/-- Closes the editor. The line stays in its field. -/
def close (e : FlagsEditor) : FlagsEditor := { e with isOpen := false, complaint := none }

def submit (e : FlagsEditor) (line : Text) : FlagsEditor × Option (List Text) :=
  let e := { e with field := line }
  match ShellWords.split line with
  | .ok flags => (e.close, some flags)
  | .error defect => ({ e with complaint := some defect }, none)

def complaintText (e : FlagsEditor) : Text :=
  match e.complaint with
  | some defect => "Cannot parse arguments: " ++ Fault.wordsDefect defect
  | none => []

theorem submit_of_split_ok {line : Text} {flags : List Text} (h : ShellWords.split line = .ok flags)
    (e : FlagsEditor) : e.submit line = (({ e with field := line } : FlagsEditor).close, some flags) := by
  simp only [submit, h]

theorem submit_of_split_error {line : Text} {d : ShellWords.Defect} (h : ShellWords.split line = .error d)
    (e : FlagsEditor) : e.submit line = ({ e with field := line, complaint := some d }, none) := by
  simp only [submit, h]

end FlagsEditor

end DisasmLens
