import DisasmLens.Session

/-!
# Runs of a session

A rebuild can be broken off where the source file is read, where it is compiled and where the report is read.
`Session.outcome` tells how far it gets, and `Session.fst_rebuild` says what the build is afterwards. Later
results about rebuilding are read off this one.

`Session.Reachable` are the states that a session can come to, by steps of its own and by any change of the
host between two of them. It carries the latest refresh along.
-/

namespace DisasmLens.Session

/-! ### Outcomes -/

/-- How far a rebuild gets: not even to the code, to the compiler, to a report with a number that is too long, or to
the end. A complete one has an empty listing if there is none. -/
inductive Outcome where
  | unread (fault : Fault)
  | uncompiled (code : Text) (fault : Fault)
  | unparsed (code report : Text) (numeral : Text.LongNumeral)
  | complete (code whole report : Text) (diagnostics : List Diagnostic)

def outcome (s : Session) (h : Host) : Outcome :=
  match (readFile s.build.source).run.run h with
  | (.error f, _) => .unread f
  | (.ok code, h) =>
    match (s.toolchain.compile s.build.source s.flags).run.run h with
    | (.error f, _) => .uncompiled code f
    | (.ok (whole, report), _) =>
      match Diagnostic.parseAll report with
      | .error numeral => .unparsed code report numeral
      | .ok diagnostics => .complete code whole report diagnostics

namespace Outcome

def HasListing : Outcome → Prop
  | .complete _ whole _ _ => whole ≠ []
  | _ => False

/-- What a build becomes by a rebuild with some arguments that ends at a time. -/
def update (flags : List Text) (time : Int) (b : Build) : Outcome → Build
  | .unread f => { b with report := faultReport f }.withoutListing time
  | .uncompiled code f => { b.withCode code with report := faultReport f }.withoutListing time
  | .unparsed code _ numeral =>
    { b.withCode code with report := faultReport (.longNumeral numeral), flags }.withoutListing time
  | .complete code whole report diagnostics =>
    let b := { b.withCode code with report, flags, diagnostics }
    if whole = [] then b.withoutListing time
    else
      let listing := Listing.retain b.source whole
      b.withListing listing (Summary.of listing) whole time

end Outcome

theorem parseAll_of_outcome {s : Session} {h : Host} {code whole report : Text}
    {diagnostics : List Diagnostic} (ho : s.outcome h = .complete code whole report diagnostics) :
    Diagnostic.parseAll report = .ok diagnostics := by
  unfold outcome at ho
  split at ho
  · cases ho
  · split at ho
    · cases ho
    · split at ho
      · cases ho
      · cases ho
        assumption

/-! ### Rebuilding -/

theorem fst_fail (s : Session) (f : Fault) (h : Host) :
    ((s.fail f).run h).1 =
      { s with build :=
          { s.build with report := faultReport f }.withoutListing ((s.fail f).run h).2.wallClock } := by
  simp only [fail, Action.run_bind, Action.run_get, Action.run_pure]

theorem fst_drop (s : Session) (h : Host) :
    (s.drop.run h).1 = { s with build := s.build.withoutListing (s.drop.run h).2.wallClock } := by
  simp only [drop, Action.run_bind, Action.run_get, Action.run_pure]

theorem fst_processLogged (target whole : Text) (h : Host) :
    ((Listing.processLogged target whole).run h).1 = Listing.process target whole := by
  unfold Listing.processLogged
  split <;> rfl

theorem fst_succeed (s : Session) (whole : Text) (h : Host) :
    ((s.succeed whole).run h).1 =
      { s with build :=
          let listing := Listing.retain s.build.source whole
          s.build.withListing listing (Summary.of listing) whole ((s.succeed whole).run h).2.wallClock } := by
  simp only [succeed, Action.run_bind, Action.run_get, Action.run_pure, fst_processLogged,
    Listing.process, log_wallClock]

/-- What a rebuild does to a session: it changes the build as its outcome says, and nothing else. -/
theorem fst_rebuild (s : Session) (h : Host) :
    (s.rebuild.run h).1 =
      { s with build := (s.outcome h).update s.flags (s.rebuild.run h).2.wallClock s.build } := by
  unfold rebuild outcome
  rw [Action.run_bind]
  cases (readFile s.build.source).run.run h with
  | mk read h₁ =>
    cases read with
    | error f => exact fst_fail s f h₁
    | ok code =>
      dsimp only
      rw [Action.run_bind, Build.source_withCode]
      cases (s.toolchain.compile s.build.source s.flags).run.run h₁ with
      | mk compiled h₂ =>
        cases compiled with
        | error f => exact fst_fail _ f h₂
        | ok built =>
          obtain ⟨whole, report⟩ := built
          dsimp only [conclude]
          cases Diagnostic.parseAll report with
          | error numeral => exact fst_fail _ _ h₂
          | ok diagnostics =>
            dsimp only [Outcome.update]
            split
            · exact fst_drop _ h₂
            · exact fst_succeed _ whole h₂

structure Refresh where
  session : Session
  host : Host

def Refresh.outcome (r : Refresh) : Outcome := r.session.outcome r.host

def refreshOn (s : Session) (h : Host) : Refresh := ⟨s, (s.announce.run h).2⟩

theorem fst_refresh (s : Session) (h : Host) :
    ∃ time, (s.refresh.run h).1 =
      publish { s with build := (s.refreshOn h).outcome.update s.flags time s.build } := by
  refine ⟨(s.rebuild.run (s.announce.run h).2).2.wallClock, ?_⟩
  rw [refresh, Action.run_bind, Action.run_bind, Action.run_pure]
  dsimp only
  rw [fst_rebuild s (s.announce.run h).2]
  rfl

/-- A refresh changes the build and what is published of a session, and nothing else. -/
theorem exists_fst_refresh (s : Session) (h : Host) :
    ∃ build published, (s.refresh.run h).1 = { s with build, published } := by
  obtain ⟨time, ht⟩ := fst_refresh s h
  rw [ht, publish]
  split
  · exact ⟨_, _, rfl⟩
  · exact ⟨_, s.published, rfl⟩

/-! ### Steps -/

inductive Step where
  | refresh
  | setFlags (flags : List Text)
  | start
  | stop
  | deliver (event : FileEvent)
  | setSource (path : Text)
  | useCompiler (name : Json)

/-- Takes a step. A start that cannot watch its file still stands as a step, and so does a compiler that cannot be
looked up. -/
def take (s : Session) : Step → Action Session
  | .refresh => s.refresh
  | .setFlags flags => s.setFlags flags
  | .start => return (← s.start).1
  | .stop => s.stop
  | .deliver event => s.deliver event
  | .setSource path => return s.setSource path
  | .useCompiler name => return (← s.useCompiler name).1

/-- The refresh that a step brings about. An event does so only if it is reported as a save. -/
def refreshBy? (s : Session) (h : Host) : Step → Option Refresh
  | .refresh | .start => some (s.refreshOn h)
  | .setFlags flags => some (refreshOn { s with flags } h)
  | .deliver event =>
    match (s.watcher.deliver event).run h with
    | ((watcher, some _), h) => some (refreshOn { s with watcher } h)
    | ((_, none), _) => none
  | .stop | .setSource _ | .useCompiler _ => none

theorem build_publish (s : Session) : s.publish.build = s.build := by
  unfold publish
  split <;> rfl

theorem build_refresh (s : Session) (h : Host) :
    ∃ time, (s.refresh.run h).1.build = (s.refreshOn h).outcome.update s.flags time s.build := by
  obtain ⟨time, ht⟩ := fst_refresh s h
  exact ⟨time, by rw [ht, build_publish]⟩

theorem fst_start (s : Session) (h : Host) :
    ∃ watcher, (s.start.run h).1.1 = { (s.refresh.run h).1 with watcher } := by
  rw [start, Action.run_bind, Action.run_bind]
  split
  · exact ⟨_, rfl⟩
  · exact ⟨(s.refresh.run h).1.watcher, rfl⟩

theorem fst_useCompiler (s : Session) (name : Json) (h : Host) :
    ∃ toolchain, ((s.useCompiler name).run h).1.1 = { s with toolchain } := by
  rw [useCompiler, Action.run_bind]
  split
  · exact ⟨_, rfl⟩
  · exact ⟨s.toolchain, rfl⟩

theorem snd_useCompiler (s : Session) (name : Json) (h : Host) :
    ((s.useCompiler name).run h).2 = ((s.toolchain.useCompiler name).run.run h).2 := by
  rw [useCompiler, Action.run_bind]
  split <;> rfl

theorem run_deliver (s : Session) (event : FileEvent) (h : Host) :
    (s.deliver event).run h =
      match (s.watcher.deliver event).run h with
      | ((watcher, some _), h) => (refresh { s with watcher }).run h
      | ((watcher, none), h) => ({ s with watcher }, h) := by
  rw [deliver, Action.run_bind]
  cases (s.watcher.deliver event).run h with
  | mk answer h₁ =>
    obtain ⟨watcher, saved⟩ := answer
    cases saved <;> rfl

theorem build_take_of_refreshBy {s : Session} {h : Host} {step : Step} {r : Refresh}
    (hr : s.refreshBy? h step = some r) :
    r.session.build = s.build ∧
      ∃ time, ((s.take step).run h).1.build = r.outcome.update r.session.flags time s.build := by
  cases step with
  | refresh =>
    cases hr
    exact ⟨rfl, build_refresh s h⟩
  | setFlags flags =>
    cases hr
    exact ⟨rfl, build_refresh { s with flags } h⟩
  | start =>
    cases hr
    obtain ⟨watcher, hw⟩ := fst_start s h
    rw [take, Action.run_bind, Action.run_pure, hw]
    exact ⟨rfl, build_refresh s h⟩
  | deliver event =>
    rw [take, run_deliver]
    simp only [refreshBy?] at hr
    split at hr
    · cases hr
      exact ⟨rfl, build_refresh _ _⟩
    · cases hr
  | stop => cases hr
  | setSource path => cases hr
  | useCompiler name => cases hr

theorem build_take_of_not_refreshBy {s : Session} {h : Host} {step : Step}
    (hr : s.refreshBy? h step = none) :
    ∃ source, ((s.take step).run h).1.build = { s.build with source } := by
  cases step with
  | refresh => cases hr
  | setFlags flags => cases hr
  | start => cases hr
  | deliver event =>
    rw [take, run_deliver]
    simp only [refreshBy?] at hr
    split at hr
    · cases hr
    · exact ⟨s.build.source, rfl⟩
  | stop => exact ⟨s.build.source, rfl⟩
  | setSource path => exact ⟨path, rfl⟩
  | useCompiler name =>
    obtain ⟨toolchain, ht⟩ := fst_useCompiler s name h
    rw [take, Action.run_bind, Action.run_pure, ht]
    exact ⟨s.build.source, rfl⟩

/-! ### Reachable states -/

/-- The sessions and hosts that can be come to, with the latest refresh if there was one. A session begins with any
arguments, with a subscriber or without, and between two steps anything may happen to the host. -/
inductive Reachable : Option Refresh → Session → Host → Prop
  | load {source : Text} {s : Session} {h h' : Host} (flags : List Text) (isSubscribed : Bool)
      (hl : (Session.load source).run.run h = (.ok s, h')) :
      Reachable none { s with flags, isSubscribed } h'
  | step {latest : Option Refresh} {s : Session} {h : Host} (step : Step)
      (hr : Reachable latest s h) :
      Reachable ((s.refreshBy? h step).or latest) ((s.take step).run h).1 ((s.take step).run h).2
  | host {latest : Option Refresh} {s : Session} {h : Host} (h' : Host)
      (hr : Reachable latest s h) : Reachable latest s h'

theorem build_load {source : Text} {s : Session} {h h' : Host}
    (hl : (Session.load source).run.run h = (.ok s, h')) : s.build = { source } := by
  obtain ⟨toolchain, h₁, -, hs⟩ := Attempt.run_bind_eq_ok hl
  cases hs
  rfl

/-! ### Runs -/

structure Moment where
  session : Session
  host : Host
  step : Step

def Moment.next (m : Moment) : Session × Host := (m.session.take m.step).run m.host

/-- What a run leads to from a session and a host, with its steps, the latest first. Between two steps anything may
happen to the host. -/
inductive Run (start : Session) (startHost : Host) : List Moment → Session → Host → Prop where
  | refl : Run start startHost [] start startHost
  | step {ms : List Moment} {s : Session} {h : Host} (step : Step) (hr : Run start startHost ms s h) :
      Run start startHost (⟨s, h, step⟩ :: ms) ((s.take step).run h).1 ((s.take step).run h).2
  | host {ms : List Moment} {s : Session} {h : Host} (h' : Host) (hr : Run start startHost ms s h) :
      Run start startHost ms s h'

end DisasmLens.Session
