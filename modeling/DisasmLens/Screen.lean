import DisasmLens.FlagsEditor
import DisasmLens.Markup.Line
import DisasmLens.Session
import DisasmLens.StatusBar

/-!
# The screen

The screen shows the latest build of a session: its listing or, if that is not worth showing, its report, and
a status bar below. An editor for the compiler's arguments may lie on top.

Each build that the session publishes leaves a message for the screen. Handling a message shows what the
latest build is at that time, so that the messages that are left behind a newer build do no harm.

The screen breaks down if the status bar cannot be shown. How a text is shown is up to the library that draws the
screen, the `render` below.
-/

namespace DisasmLens

/-- The screen. The listing and the report are kept while they are not displayed. Of the builds that were published the
first `handled` ones have been shown. -/
structure Screen where
  session : Session
  bar : StatusBar := {}
  editor : FlagsEditor := {}
  displaysListing : Bool := true
  displaysReport : Bool := false
  listing : Styled := ⟨[], []⟩
  report : Text := []
  handled : Nat := 0

namespace Screen

def pending (s : Screen) : Nat := s.session.published.length - s.handled

/-! ### Showing a build -/

def barChange (b : Build) : StatusBar.Change where
  flags := some (ShellWords.join b.flags)
  status := some (if b.isShowable then "ok".toList else "error".toList)
  labels := some b.summary.labels
  instructions := some b.summary.instructions
  errors := some (Diagnostic.errorCount b.diagnostics)

def presentBuild (s : Screen) (b : Build) : Screen :=
  if b.isShowable then
    { s with displaysListing := true, displaysReport := false, listing := Markup.listing b.listing }
  else
    { s with
      displaysListing := false
      displaysReport := true
      report := b.reportOr "No disassembly produced." }

variable (render : Renderer)

/-- Handles one message: shows the latest build. -/
def present (s : Screen) : Except Fault Screen := do
  let b := s.session.build
  let bar ← s.bar.change render (barChange b)
  return { s.presentBuild b with bar, handled := s.handled + 1 }

def presentTimes : Nat → Screen → Except Fault Screen
  | 0, s => .ok s
  | n + 1, s => s.present render >>= presentTimes n

def settle (s : Screen) : Except Fault Screen := presentTimes render s.pending s

def shownReport (s : Screen) : Text := Text.uniformLines s.report

/-! ### Opening and closing -/

/-- Opens the screen on a session and starts the session. If its source file cannot be watched there is no
screen. -/
def mount (session : Session) : Attempt Screen := do
  let bar ← Attempt.ofExcept <| ({} : StatusBar).change render
    { file := some (Path.baseName session.build.source), status := some "compiling".toList }
  match ← session.start with
  | (session, none) => return { session, bar }
  | (_, some f) => throw f

def close (s : Screen) : Action Screen :=
  return { s with session := ← s.session.stop }

/-! ### Events -/

inductive Event where
  | rebuild
  | edit
  | submit (line : Text)
  | leave
  | file (event : FileEvent)
  | message

def rebuild (s : Screen) : Attempt Screen := do
  let bar ← Attempt.ofExcept (s.bar.change render { status := some "compiling".toList })
  return { s with bar, session := ← s.session.refresh }

/-- Takes a submitted line in. Its words are the session's arguments from now on. -/
def submit (s : Screen) (line : Text) : Action Screen := do
  match s.editor.submit line with
  | (editor, some flags) => return { s with editor, session := ← s.session.setFlags flags }
  | (editor, none) => return { s with editor }

def handle (s : Screen) : Event → Attempt Screen
  | .rebuild => s.rebuild render
  | .edit => return { s with editor := s.editor.edit s.session.flags }
  | .submit line => return ← s.submit line
  | .leave => return { s with editor := s.editor.close }
  | .file event => return { s with session := ← s.session.deliver event }
  | .message => if s.pending = 0 then return s else Attempt.ofExcept (s.present render)

end Screen

end DisasmLens
