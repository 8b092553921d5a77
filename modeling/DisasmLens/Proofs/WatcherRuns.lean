import DisasmLens.Watcher

/-!
# Runs of a watcher

A `Record` is what can be seen of one step of a watcher: which source file a start succeeded for, and when an
event came in and what was reported for it. The memory of a watcher is a function of the records behind it
(`watch_of_run`): what it watches is what the latest successful start named, and the report that it measures
from is the latest one since.
-/

namespace DisasmLens

def Watch.isDue (watch : Watch) (event : FileEvent) (h : Host) : Bool :=
  event.savedPath?.any (watch.isSource h.directory) && !watch.isQuiet h.instant

namespace Watcher

/-! ### Effects -/

theorem fst_stop (w : Watcher) (h : Host) : (w.stop.run h).1 = {} := by
  unfold stop
  split <;> rfl

theorem snd_stop (w : Watcher) (h : Host) :
    ∃ observer, (w.stop.run h).2 = { h with journal.observer := observer } := by
  unfold stop
  split
  · exact ⟨_, rfl⟩
  · exact ⟨h.journal.observer, rfl⟩

def opening (w : Watcher) (source : AbsolutePath) : Action Unit := do
  let _ ← w.stop
  observe (.schedule source.parent.text)
  observe .start

/-- A start is refused before anything is done, or not at all. -/
theorem run_start (w : Watcher) (path : Text) (h : Host) :
    (w.start path).run.run h =
      if h.hasEntry (h.resolve path).text = false then (.error (.nothingToWatch path), h)
      else if Path.isSource (h.resolve path).text = false then (.error (.notASource path), h)
      else
        (.ok ⟨some { source := h.resolve path }⟩,
          ((log .info .watcher ("Watching " ++ (h.resolve path).text)).run
            ((w.opening (h.resolve path)).run h).2).2) := by
  have hrun : (w.start path).run.run h = ((do
      if !h.hasEntry (h.resolve path).text then throw (Fault.nothingToWatch path)
      if !Path.isSource (h.resolve path).text then throw (.notASource path)
      let _ ← w.stop
      observe (.schedule (h.resolve path).parent.text)
      observe .start
      log .info .watcher ("Watching " ++ (h.resolve path).text)
      return ⟨some { source := h.resolve path }⟩ : Attempt Watcher)).run.run h := rfl
  rw [hrun]
  cases h.hasEntry (h.resolve path).text with
  | false => rfl
  | true =>
    cases Path.isSource (h.resolve path).text with
    | false => rfl
    | true => rfl

theorem fst_start (w : Watcher) (path : Text) (h : Host) :
    ((w.start path).run.run h).1 =
      if h.hasEntry (h.resolve path).text = false then .error (.nothingToWatch path)
      else if Path.isSource (h.resolve path).text = false then .error (.notASource path)
      else .ok ⟨some { source := h.resolve path }⟩ := by
  rw [run_start]
  split
  · rfl
  · split <;> rfl

theorem fst_deliver (w : Watcher) (event : FileEvent) (h : Host) :
    ((w.deliver event).run h).1 =
      match w.watch with
      | some watch =>
        if watch.isDue event h then (⟨some { watch with lastReport := some h.instant }⟩, some watch.source.text)
        else (w, none)
      | none => (w, none) := by
  unfold deliver
  rw [Action.run_bind, Action.run_get]
  dsimp only
  cases w.watch with
  | none => rfl
  | some watch =>
    cases he : event.savedPath? with
    | none =>
      simp only [Watch.isDue, he, Option.any_none, Bool.false_and]
      rfl
    | some path =>
      simp only [Watch.isDue, he, Option.any_some]
      cases watch.isSource h.directory path with
      | false => rfl
      | true =>
        cases watch.isQuiet h.instant with
        | false => rfl
        | true => rfl

theorem snd_deliver (w : Watcher) (event : FileEvent) (h : Host) :
    ∃ logs, ((w.deliver event).run h).2 = { h with journal.logs := logs } := by
  unfold deliver
  rw [Action.run_bind, Action.run_get]
  dsimp only
  split
  · rename_i watch path _ _
    cases watch.isSource h.directory path with
    | false => exact ⟨h.journal.logs, rfl⟩
    | true =>
      cases watch.isQuiet h.instant with
      | false => exact snd_log ..
      | true => exact snd_log ..
  · exact ⟨h.journal.logs, rfl⟩

/-! ### Records -/

inductive Step where
  | start (path : Text)
  | stop
  | deliver (event : FileEvent)

/-- What can be seen of a step. An event comes in at a time, in a working directory, with the path that was reported
for it, if any. -/
inductive Record where
  | started (source : AbsolutePath)
  | refused (fault : Fault)
  | stopped
  | event (event : FileEvent) (directory : Text) (time : Instant) (report : Option Text)
deriving DecidableEq

def perform (w : Watcher) : Step → Action (Record × Watcher)
  | .start path => do
    let source := (← get).resolve path
    match ← (w.start path).run with
    | .ok w => return (.started source, w)
    | .error fault => return (.refused fault, w)
  | .stop => return (.stopped, ← w.stop)
  | .deliver event => do
    let h ← get
    let (w, report) ← w.deliver event
    return (.event event h.directory h.instant report, w)

def watched? : List Record → Option AbsolutePath
  | [] => none
  | .started source :: _ => some source
  | .stopped :: _ => none
  | .refused _ :: rs | .event .. :: rs => watched? rs

def lastReport? : List Record → Option Instant
  | [] | .started _ :: _ => none
  | .event _ _ time (some _) :: _ => some time
  | .stopped :: rs | .refused _ :: rs | .event _ _ _ none :: rs => lastReport? rs

def remembered? (rs : List Record) : Option Watch :=
  (watched? rs).map fun source => ⟨source, lastReport? rs⟩

theorem mem_of_watched? {rs : List Record} {source : AbsolutePath} (h : watched? rs = some source) :
    .started source ∈ rs := by
  induction rs with
  | nil => cases h
  | cons r rs ih =>
    cases r with
    | started source' =>
      cases h
      exact List.mem_cons_self
    | refused fault => exact List.mem_cons_of_mem _ (ih h)
    | stopped => cases h
    | event e directory time report => exact List.mem_cons_of_mem _ (ih h)

theorem lastReport?_append_started (rs : List Record) (source : AbsolutePath) :
    lastReport? (rs ++ [.started source]) = lastReport? rs := by
  induction rs with
  | nil => rfl
  | cons r rs ih =>
    cases r with
    | started source => rfl
    | refused fault => exact ih
    | stopped => exact ih
    | event e directory time report =>
      cases report with
      | some path => rfl
      | none => exact ih

theorem fst_perform_start (w : Watcher) (path : Text) (h : Host) :
    ((w.perform (.start path)).run h).1 =
      match ((w.start path).run.run h).1 with
      | .ok w => (.started (h.resolve path), w)
      | .error fault => (.refused fault, w) := by
  rw [perform, Action.run_bind, Action.run_get, Action.run_bind]
  cases ((w.start path).run.run h).1 <;> rfl

theorem fst_perform_stop (w : Watcher) (h : Host) : ((w.perform .stop).run h).1 = (.stopped, {}) := by
  rw [perform, Action.run_bind, fst_stop]
  rfl

theorem fst_perform_deliver (w : Watcher) (event : FileEvent) (h : Host) :
    ((w.perform (.deliver event)).run h).1 =
      (.event event h.directory h.instant ((w.deliver event).run h).1.2, ((w.deliver event).run h).1.1) :=
  rfl

theorem watch_perform {w : Watcher} {rs : List Record} (hw : w.watch = remembered? rs) (step : Step) (h : Host) :
    ((w.perform step).run h).1.2.watch = remembered? (((w.perform step).run h).1.1 :: rs) := by
  cases step with
  | start path =>
    rw [fst_perform_start, fst_start]
    split
    · rename_i next hstart
      split at hstart
      · cases hstart
      · split at hstart
        · cases hstart
        · cases hstart
          rfl
    · exact hw
  | stop =>
    rw [fst_perform_stop]
    rfl
  | deliver event =>
    rw [fst_perform_deliver, fst_deliver, hw]
    unfold remembered?
    cases hsource : watched? rs with
    | none =>
      dsimp only [Option.map_none, watched?]
      rw [hw, remembered?, hsource]
      rfl
    | some source =>
      dsimp only [Option.map_some, watched?]
      rw [hsource]
      split
      · rfl
      · rw [hw, remembered?, hsource]
        rfl

/-! ### Runs -/

/-- The watchers and hosts that can be come to, with the records behind them, the latest first. Between two steps
anything may happen to the host. -/
inductive Run : List Record → Watcher → Host → Prop where
  | new (h : Host) : Run [] {} h
  | step {rs : List Record} {w : Watcher} {h : Host} (step : Step) (hr : Run rs w h) :
      Run (((w.perform step).run h).1.1 :: rs) ((w.perform step).run h).1.2 ((w.perform step).run h).2
  | host {rs : List Record} {w : Watcher} {h : Host} (h' : Host) (hr : Run rs w h) : Run rs w h'

theorem Run.next {rs : List Record} {w w' : Watcher} {h : Host} {r : Record} (step : Step) (hr : Run rs w h)
    (hs : ((w.perform step).run h).1 = (r, w')) (h' : Host) : Run (r :: rs) w' h' := by
  have hnext := (hr.step step).host h'
  rwa [hs] at hnext

theorem watch_of_run {rs : List Record} {w : Watcher} {h : Host} (hr : Run rs w h) :
    w.watch = remembered? rs := by
  induction hr with
  | new h => rfl
  | step step _ ih => exact watch_perform ih step _
  | host _ _ ih => exact ih

end Watcher

end DisasmLens
