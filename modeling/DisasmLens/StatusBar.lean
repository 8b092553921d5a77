import DisasmLens.Fault

/-!
# The status bar

One line that says which file is shown, with which arguments it was built, how the build went and what its
listing holds. The file, the arguments and the errors are left out if there are none.

The library that draws the screen takes the line for markup, and may show something else than its text or refuse it.
What it makes of a text is a parameter here (`Renderer`).
-/

namespace DisasmLens

/-- What a library that draws screens makes of a text: what it shows, or what is wrong with the text. -/
abbrev Renderer := Text → Except Text Text

structure StatusBar where
  file : Text := []
  flags : Text := []
  status : Text := "idle"
  labels : Int := 0
  instructions : Int := 0
  errors : Int := 0
  line : Text := []
deriving DecidableEq, Repr

namespace StatusBar

/-- A change of the status bar. What is not given stays. -/
structure Change where
  file : Option Text := none
  flags : Option Text := none
  status : Option Text := none
  labels : Option Int := none
  instructions : Option Int := none
  errors : Option Int := none

def apply (b : StatusBar) (c : Change) : StatusBar where
  file := c.file.getD b.file
  flags := c.flags.getD b.flags
  status := c.status.getD b.status
  labels := c.labels.getD b.labels
  instructions := c.instructions.getD b.instructions
  errors := c.errors.getD b.errors
  line := b.line

def parts (b : StatusBar) : List Text :=
  (if b.file = [] then [] else [b.file])
    ++ (if b.flags = [] then [] else ["flags: " ++ b.flags])
    ++ ["● " ++ b.status,
        Text.decimalInt b.instructions ++ " instr / " ++ Text.decimalInt b.labels ++ " labels"]
    ++ (if b.errors = 0 then [] else [Text.decimalInt b.errors ++ " error(s)"])

def text (b : StatusBar) : Text := Text.joinWith "  │  " b.parts

def change (render : Renderer) (b : StatusBar) (c : Change) : Except Fault StatusBar :=
  match render (b.apply c).text with
  | .ok line => .ok { b.apply c with line }
  | .error message => .error (.markup message)

end StatusBar

end DisasmLens
