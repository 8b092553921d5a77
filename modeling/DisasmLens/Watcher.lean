import DisasmLens.Host.Basic

/-!
# Watching a source file

A watcher reports when its source file was saved. Editors write a file in place, or write another file and
move it there, so files that were modified, created or moved count as saved; and for one save there may be
several events, so those within half a second after a report are left out.

At most one observer is alive: a watcher that watches is stopped before it watches anew.
-/

namespace DisasmLens

inductive FileChange where
  | modified
  | created
  | moved (destination : Text)
  | deleted
  | closed
  | opened
deriving DecidableEq, Repr

structure FileEvent where
  change : FileChange
  path : Text
  isDirectory : Bool := false
deriving DecidableEq, Repr

def FileEvent.savedPath? (e : FileEvent) : Option Text :=
  if e.isDirectory then none
  else
    match e.change with
    | .modified | .created => some e.path
    | .moved destination => some destination
    | .deleted | .closed | .opened => none

structure Watch where
  source : AbsolutePath
  lastReport : Option Instant := none
deriving DecidableEq, Repr

def Watch.isSource (w : Watch) (directory path : Text) : Bool :=
  path ≠ [] && Path.isSource path && Path.resolve directory path = w.source

/-- Whether a save now would follow a report too closely. -/
def Watch.isQuiet (w : Watch) (now : Instant) : Bool :=
  match w.lastReport with
  | some last => last.withinHalfSecond now
  | none => false

structure Watcher where
  watch : Option Watch := none
deriving DecidableEq, Repr

namespace Watcher

def isRunning (w : Watcher) : Bool := w.watch.isSome

def stop (w : Watcher) : Action Watcher := do
  if w.isRunning then
    observe .stop
    observe .join
  return {}

/-- Watches the source file at a path. The directory that holds the file is observed, not the file, since
a file that is moved there is another one. -/
def start (w : Watcher) (path : Text) : Attempt Watcher := do
  let h ← get
  let source := h.resolve path
  if !h.hasEntry source.text then throw (.nothingToWatch path)
  if !Path.isSource source.text then throw (.notASource path)
  let _ ← w.stop
  observe (.schedule source.parent.text)
  observe .start
  log .info .watcher ("Watching " ++ source.text)
  return ⟨some { source }⟩

def deliver (w : Watcher) (event : FileEvent) : Action (Watcher × Option Text) := do
  let h ← get
  match w.watch, event.savedPath? with
  | some watch, some path =>
    if !watch.isSource h.directory path then return (w, none)
    let source := watch.source.text
    if watch.isQuiet h.instant then
      log .debug .watcher ("Ignoring repeated save event for " ++ source)
      return (w, none)
    log .debug .watcher ("Save detected in " ++ source)
    return (⟨some { watch with lastReport := some h.instant }⟩, some source)
  | _, _ => return (w, none)

end Watcher

end DisasmLens
