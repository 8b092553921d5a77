import Mathlib.Data.List.Chain
import DisasmLens.Proofs.SaveReports

/-!
# Turns of observation

What a watcher does with observers falls into turns: an observer is scheduled and started for a source file, and it
is stopped and joined. Over a run the two kinds of turn take each other's place (`turns_of_run`), so there is never
more than one observer, and the one that is left, if any, is that of the watched file. A start that is refused takes
no turn at all.
-/

namespace DisasmLens.Watcher

/-- A turn with an observer: it is scheduled for the directory of a source file and started, or stopped and joined. -/
inductive Turn where
  | opens (source : AbsolutePath)
  | closes
deriving DecidableEq

namespace Turn

def actions : Turn → List ObserverAction
  | opens source => [.schedule source.parent.text, .start]
  | closes => [.stop, .join]

def isOpening : Turn → Bool
  | opens _ => true
  | closes => false

/-- The first turn opens, and no two of a kind follow each other. -/
def Alternate (ts : List Turn) : Prop :=
  (∀ t ∈ ts.head?, t.isOpening = true) ∧ ts.IsChain fun t u => t.isOpening ≠ u.isOpening

def open? (ts : List Turn) : Option AbsolutePath :=
  match ts.getLast? with
  | some (opens source) => some source
  | _ => none

theorem open?_concat_opens (ts : List Turn) (source : AbsolutePath) : open? (ts ++ [opens source]) = some source := by
  rw [open?, List.getLast?_concat]

theorem open?_concat_closes (ts : List Turn) : open? (ts ++ [closes]) = none := by
  rw [open?, List.getLast?_concat]

theorem open?_eq_some_iff {ts : List Turn} {source : AbsolutePath} :
    open? ts = some source ↔ ts.getLast? = some (opens source) := by
  unfold open?
  cases ts.getLast? with
  | none => simp
  | some t => cases t <;> simp

theorem Alternate.concat {ts : List Turn} {t : Turn} (h : Alternate ts) (hfirst : ts = [] → t.isOpening = true)
    (hlast : ∀ u ∈ ts.getLast?, u.isOpening ≠ t.isOpening) : Alternate (ts ++ [t]) := by
  constructor
  · cases ts with
    | nil =>
      intro u hu
      cases hu
      exact hfirst rfl
    | cons u ts => exact h.1
  · rw [List.isChain_append]
    refine ⟨h.2, List.isChain_singleton _, fun u hu v hv => ?_⟩
    cases hv
    exact hlast u hu

theorem Alternate.concat_opens {ts : List Turn} (h : Alternate ts) (ho : open? ts = none) (source : AbsolutePath) :
    Alternate (ts ++ [opens source]) := by
  refine h.concat (fun _ => rfl) fun u hu => ?_
  cases u with
  | opens source =>
    rw [open?_eq_some_iff.mpr hu] at ho
    cases ho
  | closes => simp [isOpening]

theorem Alternate.concat_closes {ts : List Turn} (h : Alternate ts) {source : AbsolutePath}
    (ho : open? ts = some source) : Alternate (ts ++ [closes]) := by
  have hlast := open?_eq_some_iff.mp ho
  refine h.concat (fun hnil => ?_) fun u hu => ?_
  · rw [hnil] at hlast
    cases hlast
  · rw [hlast] at hu
    cases hu
    simp [isOpening]

def close (ts : List Turn) : List Turn := if (open? ts).isSome then ts ++ [closes] else ts

theorem open?_close (ts : List Turn) : open? (close ts) = none := by
  unfold close
  cases ho : open? ts with
  | none => exact ho
  | some source => exact open?_concat_closes ts

theorem Alternate.close {ts : List Turn} (h : Alternate ts) : Alternate (Turn.close ts) := by
  unfold Turn.close
  cases ho : open? ts with
  | none => exact h
  | some source => exact h.concat_closes ho

end Turn

/-! ### The turns of a run -/

def turns : List Record → List Turn
  | [] => []
  | .started source :: rs => Turn.close (turns rs) ++ [.opens source]
  | .stopped :: rs => Turn.close (turns rs)
  | .refused _ :: rs | .event .. :: rs => turns rs

theorem open?_turns (rs : List Record) : Turn.open? (turns rs) = watched? rs := by
  induction rs with
  | nil => rfl
  | cons r rs ih =>
    cases r with
    | started source => exact Turn.open?_concat_opens _ source
    | refused fault => exact ih
    | stopped => exact Turn.open?_close _
    | event e directory time report => exact ih

theorem alternate_turns (rs : List Record) : Turn.Alternate (turns rs) := by
  induction rs with
  | nil => exact ⟨fun _ ht => (nomatch ht), List.isChain_nil⟩
  | cons r rs ih =>
    cases r with
    | started source => exact ih.close.concat_opens (Turn.open?_close _) source
    | refused fault => exact ih
    | stopped => exact ih.close
    | event e directory time report => exact ih

/-! ### What is done with observers -/

theorem observer_stop (w : Watcher) (h : Host) :
    (w.stop.run h).2.journal.observer =
      h.journal.observer ++ if w.isRunning then Turn.closes.actions else [] := by
  unfold stop
  cases w.isRunning with
  | true => exact List.append_assoc _ _ _
  | false => exact (List.append_nil _).symm

theorem snd_start (w : Watcher) (path : Text) (h : Host) :
    ((w.start path).run.run h).2 =
      match ((w.start path).run.run h).1 with
      | .error _ => h
      | .ok _ =>
        ((log .info .watcher ("Watching " ++ (h.resolve path).text)).run ((w.opening (h.resolve path)).run h).2).2 := by
  rw [run_start]
  split
  · rfl
  · split <;> rfl

theorem observer_start {w w' : Watcher} {path : Text} {h : Host} (hs : ((w.start path).run.run h).1 = .ok w') :
    ((w.start path).run.run h).2.journal.observer =
      (w.stop.run h).2.journal.observer ++ (Turn.opens (h.resolve path)).actions := by
  rw [snd_start, hs]
  dsimp only
  obtain ⟨logs, hlogs⟩ := snd_log .info .watcher ("Watching " ++ (h.resolve path).text)
    ((w.opening (h.resolve path)).run h).2
  rw [hlogs]
  exact List.append_assoc _ _ _

theorem snd_start_of_error {w : Watcher} {path : Text} {h : Host} {fault : Fault}
    (hs : ((w.start path).run.run h).1 = .error fault) : ((w.start path).run.run h).2 = h := by
  rw [snd_start, hs]

theorem snd_perform_start (w : Watcher) (path : Text) (h : Host) :
    ((w.perform (.start path)).run h).2 = ((w.start path).run.run h).2 := by
  rw [perform, Action.run_bind, Action.run_get, Action.run_bind]
  cases ((w.start path).run.run h).1 <;> rfl

theorem flatMap_close (ts : List Turn) :
    (Turn.close ts).flatMap Turn.actions =
      ts.flatMap Turn.actions ++ if (Turn.open? ts).isSome then Turn.closes.actions else [] := by
  unfold Turn.close
  cases Turn.open? ts with
  | none => exact (List.append_nil _).symm
  | some source =>
    simp only [Option.isSome_some, if_true, List.flatMap_append, List.flatMap_cons, List.flatMap_nil, List.append_nil]

theorem observer_perform {rs : List Record} {w : Watcher} {h : Host} (hw : w.watch = remembered? rs)
    (hj : h.journal.observer = (turns rs).flatMap Turn.actions) (step : Step) :
    ((w.perform step).run h).2.journal.observer =
      (turns (((w.perform step).run h).1.1 :: rs)).flatMap Turn.actions := by
  -- Both a start and a stop first close what is open, and the watcher is running just if something is.
  have hstop : (w.stop.run h).2.journal.observer = (Turn.close (turns rs)).flatMap Turn.actions := by
    have hrunning : w.isRunning = (Turn.open? (turns rs)).isSome := by
      rw [isRunning, hw, remembered?, Option.isSome_map, open?_turns]
    rw [observer_stop, flatMap_close, hj, hrunning]
  cases step with
  | start path =>
    rw [snd_perform_start, fst_perform_start]
    cases hs : ((w.start path).run.run h).1 with
    | error fault =>
      rw [snd_start_of_error hs]
      exact hj
    | ok w' =>
      rw [observer_start hs, hstop]
      simp only [turns, List.flatMap_append, List.flatMap_cons, List.flatMap_nil, List.append_nil]
  | stop =>
    rw [fst_perform_stop]
    exact hstop
  | deliver event =>
    have hsnd : ((w.perform (.deliver event)).run h).2 = ((w.deliver event).run h).2 := rfl
    obtain ⟨logs, hlogs⟩ := w.snd_deliver event h
    rw [fst_perform_deliver, hsnd, hlogs]
    exact hj

/-- The watchers and hosts that can be come to from a new watcher, while nothing else is done with observers. Between
two steps anything else may happen to the host. -/
inductive ObservedRun : List Record → Watcher → Host → Prop where
  | new {h : Host} (hj : h.journal.observer = []) : ObservedRun [] {} h
  | step {rs : List Record} {w : Watcher} {h : Host} (step : Step) (hr : ObservedRun rs w h) :
      ObservedRun (((w.perform step).run h).1.1 :: rs) ((w.perform step).run h).1.2 ((w.perform step).run h).2
  | host {rs : List Record} {w : Watcher} {h h' : Host} (hr : ObservedRun rs w h)
      (hj : h'.journal.observer = h.journal.observer) : ObservedRun rs w h'

theorem ObservedRun.run {rs : List Record} {w : Watcher} {h : Host} (hr : ObservedRun rs w h) : Run rs w h := by
  induction hr with
  | new _ => exact .new _
  | step step _ ih => exact .step step ih
  | host _ _ ih => exact .host _ ih

theorem observer_of_run {rs : List Record} {w : Watcher} {h : Host} (hr : ObservedRun rs w h) :
    h.journal.observer = (turns rs).flatMap Turn.actions := by
  induction hr with
  | new hj => exact hj
  | step step hr ih => exact observer_perform (watch_of_run hr.run) ih step
  | host _ hj ih => exact hj.trans ih

/-- All that is done with observers is a row of turns, of which the last one opens if and only if a file is watched,
and then it is for that file. A start is refused if there is nothing at its path or no source file, and leaves the
watcher and the host as they are. -/
theorem turns_of_run {rs : List Record} {w : Watcher} {h : Host} (hr : ObservedRun rs w h) :
    h.journal.observer = (turns rs).flatMap Turn.actions ∧ Turn.Alternate (turns rs) ∧
      (w.isRunning = true ↔ ∃ source, (turns rs).getLast? = some (.opens source)) ∧
      w.watch.map Watch.source = Turn.open? (turns rs) ∧
      ∀ path, ((∃ fault, ((w.start path).run.run h).1 = .error fault) ↔
          h.hasEntry (h.resolve path).text = false ∨ Path.isSource (h.resolve path).text = false) ∧
        ∀ fault, ((w.start path).run.run h).1 = .error fault →
          (w.perform (.start path)).run h = ((.refused fault, w), h) := by
  have hwatch : w.watch.map Watch.source = Turn.open? (turns rs) := by
    rw [watch_of_run hr.run, remembered?, open?_turns, Option.map_map]
    exact Option.map_id'
  refine ⟨observer_of_run hr, alternate_turns rs, ?_, hwatch, fun path => ⟨?_, fun fault hs => ?_⟩⟩
  · have hrunning : w.isRunning = (Turn.open? (turns rs)).isSome := by
      rw [isRunning, ← hwatch, Option.isSome_map]
    rw [hrunning, Option.isSome_iff_exists]
    exact exists_congr fun source => Turn.open?_eq_some_iff
  · rw [fst_start]
    cases h.hasEntry (h.resolve path).text <;> cases Path.isSource (h.resolve path).text <;> simp
  · refine Prod.ext ?_ ?_
    · rw [fst_perform_start, hs]
    · rw [snd_perform_start, snd_start_of_error hs]

/-- Watching is begun twice, with an attempt on a missing file between, and ended twice. -/
theorem turns_of_run_restart :
    ∃ rs w h, ObservedRun rs w h ∧ w.isRunning = false ∧ Turn.Alternate (turns rs) ∧
      (turns rs).flatMap Turn.actions =
        [.schedule "/work".toList, .start, .stop, .join, .schedule "/work".toList, .start, .stop, .join] := by
  have hr : ObservedRun _ _ _ :=
    .step .stop (.step .stop (.step (.start "x.jai") (.step (.start "y.jai") (.step (.start "/work/x.jai")
      (.new (h := sourceHost 0) rfl)))))
  obtain ⟨hobserver, halternate, -⟩ := turns_of_run hr
  refine ⟨_, _, _, hr, ?_, halternate, hobserver.symm.trans ?_⟩
  · decide +kernel
  · decide +kernel

end DisasmLens.Watcher
