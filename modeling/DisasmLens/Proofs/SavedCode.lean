import DisasmLens.Proofs.Footprint
import DisasmLens.Proofs.Notices
import DisasmLens.Proofs.SaveReports

/-!
# Whether a save is shown

A refresh shows the text that the source file has when it begins (`code_refresh`). A session runs its watcher
(`watcherRun_of_run`), so what is known of the reports of a watcher holds of a session too: an event for the
source file leads to a refresh if no save was reported shortly before, and else it is left out, even if the file
was written anew in between (`code_deliver_of_saveArrives`).
-/

namespace DisasmLens

namespace Session

/-! ### The text that a refresh shows -/

theorem Outcome.source_update (o : Outcome) (flags : List Text) (time : Int) (b : Build) :
    (o.update flags time b).source = b.source := by
  cases o with
  | complete code whole report diagnostics =>
    dsimp only [update]
    split
    · rfl
    · rfl
  | _ => rfl

theorem source_refresh (s : Session) (h : Host) : (s.refresh.run h).1.build.source = s.build.source := by
  obtain ⟨time, ht⟩ := build_refresh s h
  rw [ht, Outcome.source_update]

def Outcome.code? : Outcome → Option Text
  | .unread _ => none
  | .uncompiled code _ | .unparsed code _ _ | .complete code _ _ _ => some code

theorem Outcome.code_update (o : Outcome) (flags : List Text) (time : Int) (b : Build) :
    (o.update flags time b).code = o.code?.getD b.code := by
  cases o with
  | complete code whole report diagnostics =>
    dsimp only [update]
    split
    · rfl
    · rfl
  | _ => rfl

theorem code?_outcome (s : Session) (h : Host) : (s.outcome h).code? = (h.text s.build.source).toOption := by
  have hread : (readFile s.build.source).run.run h = (h.text s.build.source, h) := by
    show (Attempt.ofExcept (h.text s.build.source)).run.run h = _
    cases h.text s.build.source <;> rfl
  unfold outcome
  rw [hread]
  cases h.text s.build.source with
  | error f => rfl
  | ok code =>
    dsimp only
    split
    · rfl
    · split <;> rfl

theorem code_refresh (s : Session) (h : Host) :
    (s.refresh.run h).1.build.code = (h.text s.build.source).toOption.getD s.build.code := by
  obtain ⟨time, ht⟩ := build_refresh s h
  obtain ⟨logs, hlogs⟩ : ∃ logs, (s.announce.run h).2 = { h with journal.logs := logs } := snd_log ..
  rw [ht, Outcome.code_update, Refresh.outcome, code?_outcome, refreshOn, hlogs]
  rfl

/-! ### The watcher of a session -/

def file (s : Session) (h : Host) : AbsolutePath := h.resolve s.build.source

theorem watcher_refresh (s : Session) (h : Host) : (s.refresh.run h).1.watcher = s.watcher := by
  obtain ⟨build, published, hs⟩ := exists_fst_refresh s h
  rw [hs]

theorem watcher_start (s : Session) (h : Host) :
    ((s.start.run h).1.1.watcher, (s.start.run h).1.2) =
      match ((s.watcher.start s.build.source).run.run (s.refresh.run h).2).1 with
      | .ok watcher => (watcher, none)
      | .error fault => (s.watcher, some fault) := by
  rw [start, Action.run_bind, Action.run_bind, source_refresh, watcher_refresh]
  cases ((s.watcher.start s.build.source).run.run (s.refresh.run h).2).1 with
  | ok watcher => rfl
  | error fault => exact congrArg (·, some fault) (watcher_refresh s h)

namespace Moment

/-- The step of the watcher in a step, if there is one, and the host that it is taken on. -/
def watching? (m : Moment) : Option (Watcher.Step × Host) :=
  match m.step with
  | .start => some (.start m.session.build.source, (m.session.refresh.run m.host).2)
  | .stop => some (.stop, m.host)
  | .deliver event => some (.deliver event, m.host)
  | .refresh | .setFlags _ | .setSource _ | .useCompiler _ => none

def seen? (m : Moment) : Option (Watcher.Record × Watcher) :=
  m.watching?.map fun (step, h) => ((m.session.watcher.perform step).run h).1

theorem watcher_next (m : Moment) : m.next.1.watcher = (m.seen?.map Prod.snd).getD m.session.watcher := by
  obtain ⟨s, h, step⟩ := m
  cases step with
  | refresh => exact watcher_refresh s h
  | setFlags flags => exact watcher_refresh { s with flags } h
  | start =>
    have hwatcher := congrArg Prod.fst (watcher_start s h)
    refine hwatcher.trans ?_
    simp only [seen?, watching?, Option.map_some, Option.getD_some, Watcher.fst_perform_start]
    cases ((s.watcher.start s.build.source).run.run (s.refresh.run h).2).1 <;> rfl
  | stop => rfl
  | deliver event =>
    have hnext : (Moment.mk s h (.deliver event)).next = (s.deliver event).run h := rfl
    rw [hnext, run_deliver]
    cases hd : (s.watcher.deliver event).run h with
    | mk answer h₁ =>
      obtain ⟨watcher, saved⟩ := answer
      simp only [seen?, watching?, Option.map_some, Option.getD_some, Watcher.fst_perform_deliver, hd]
      cases saved with
      | none => rfl
      | some path => exact watcher_refresh { s with watcher } h₁
  | setSource path => rfl
  | useCompiler name =>
    obtain ⟨toolchain, ht⟩ := s.fst_useCompiler name h
    have hnext : (Moment.mk s h (.useCompiler name)).next.1 = { s with toolchain } := ht
    rw [hnext]
    rfl

def record? (m : Moment) : Option Watcher.Record := m.seen?.map Prod.fst

theorem watcherRun_next {m : Moment} {rs : List Watcher.Record}
    (hw : Watcher.Run rs m.session.watcher m.host) :
    Watcher.Run (m.record?.toList ++ rs) m.next.1.watcher m.next.2 := by
  rw [watcher_next, record?, seen?]
  cases m.watching? with
  | none => exact hw.host _
  | some step => exact ((hw.host step.2).step step.1).host _

/-- A step with which watching a file begins is a start, and the file is the source file. -/
theorem eq_file_of_started {m : Moment} {source : AbsolutePath} (hm : m.record? = some (.started source)) :
    source = m.session.file m.host := by
  obtain ⟨s, h, step⟩ := m
  cases step with
  | start =>
    simp only [record?, seen?, watching?, Option.map_some, Option.some.injEq, Watcher.fst_perform_start] at hm
    split at hm
    · cases hm
      exact congrArg (Path.resolve · s.build.source) (s.directory_refresh h)
    · cases hm
  | stop => cases hm
  | deliver event => cases hm
  | refresh => cases hm
  | setFlags flags => cases hm
  | setSource path => cases hm
  | useCompiler name => cases hm

end Moment

def records (ms : List Moment) : List Watcher.Record := ms.filterMap Moment.record?

theorem watcherRun_of_run {start s : Session} {startHost h : Host} {ms : List Moment} {rs : List Watcher.Record}
    (hr : Run start startHost ms s h) (hw : Watcher.Run rs start.watcher startHost) :
    Watcher.Run (records ms ++ rs) s.watcher h := by
  induction hr with
  | refl => exact hw
  | @step ms s h step _ ih =>
    have hnext := Moment.watcherRun_next (m := ⟨s, h, step⟩) ih
    rw [← List.append_assoc] at hnext
    have hrecords : records (⟨s, h, step⟩ :: ms) = (Moment.record? ⟨s, h, step⟩).toList ++ records ms := by
      rw [records, List.filterMap_cons]
      cases Moment.record? ⟨s, h, step⟩ <;> rfl
    rw [hrecords]
    exact hnext
  | host _ _ ih => exact ih.host _

theorem watcherRun_of_start {s : Session} {h : Host} (hs : (s.start.run h).1.2 = none) (h' : Host) :
    Watcher.Run [.started (s.file h)] (s.start.run h).1.1.watcher h' := by
  have hrun := watcher_start s h
  rw [hs] at hrun
  cases hw : ((s.watcher.start s.build.source).run.run (s.refresh.run h).2).1 with
  | error fault =>
    rw [hw] at hrun
    cases congrArg Prod.snd hrun
  | ok watcher =>
    rw [hw] at hrun
    have hwatcher : (s.start.run h).1.1.watcher = watcher := congrArg Prod.fst hrun
    rw [hwatcher]
    -- a start does not depend on the watcher before
    have hnew : ((({} : Watcher).start s.build.source).run.run (s.refresh.run h).2).1 = .ok watcher := by
      rw [← hw, Watcher.fst_start, Watcher.fst_start]
    refine .next (.start s.build.source) (.new (s.refresh.run h).2) ?_ h'
    rw [Watcher.fst_perform_start, hnew, Host.resolve, directory_refresh]
    rfl

/-! ### Events for the source file -/

theorem fst_deliver_of_not_isDue {s : Session} {watch : Watch} {e : FileEvent} {h : Host}
    (hw : s.watcher.watch = some watch) (hd : watch.isDue e h = false) : ((s.deliver e).run h).1 = s := by
  have hdeliver := s.watcher.fst_deliver e h
  rw [hw] at hdeliver
  dsimp only at hdeliver
  rw [hd, if_neg Bool.false_ne_true] at hdeliver
  rw [run_deliver]
  cases ha : (s.watcher.deliver e).run h with
  | mk answer h₁ =>
    rw [ha] at hdeliver
    cases hdeliver
    rfl

theorem code_deliver_of_isDue {s : Session} {watch : Watch} {e : FileEvent} {h : Host}
    (hw : s.watcher.watch = some watch) (hd : watch.isDue e h = true) :
    ((s.deliver e).run h).1.build.code = (h.text s.build.source).toOption.getD s.build.code := by
  have hdeliver := s.watcher.fst_deliver e h
  rw [hw] at hdeliver
  dsimp only at hdeliver
  rw [if_pos hd] at hdeliver
  obtain ⟨logs, hlogs⟩ := s.watcher.snd_deliver e h
  rw [run_deliver]
  cases ha : (s.watcher.deliver e).run h with
  | mk answer h₁ =>
    rw [ha] at hdeliver hlogs
    cases hdeliver
    dsimp only at hlogs ⊢
    rw [code_refresh, hlogs]
    rfl

/-- What a session watches after a start that succeeded, if it watches at all and keeps its source file. -/
theorem watch_of_started {s₀ s : Session} {h₀ h : Host} {ms : List Moment} (hs : (s₀.start.run h₀).1.2 = none)
    (hr : Run (s₀.start.run h₀).1.1 (s₀.start.run h₀).2 ms s h)
    (hms : ∀ m ∈ ms, m.session.file m.host = s₀.file h₀) (hw : s.watcher.isRunning = true) :
    s.watcher.watch = some ⟨s₀.file h₀, Watcher.lastReport? (records ms)⟩ := by
  have hwatch := Watcher.watch_of_run (watcherRun_of_run hr (watcherRun_of_start hs _))
  rw [Watcher.remembered?, Watcher.lastReport?_append_started] at hwatch
  cases hsource : Watcher.watched? (records ms ++ [.started (s₀.file h₀)]) with
  | none =>
    rw [hsource] at hwatch
    rw [Watcher.isRunning, hwatch] at hw
    cases hw
  | some source =>
    have hfile : source = s₀.file h₀ := by
      rcases List.mem_append.mp (Watcher.mem_of_watched? hsource) with hmem | hmem
      · obtain ⟨m, hm, hrecord⟩ := List.mem_filterMap.mp hmem
        rw [Moment.eq_file_of_started hrecord, hms m hm]
      · cases List.mem_singleton.mp hmem
        rfl
    rw [hwatch, hsource, hfile]
    rfl

/-- A session was started and still watches its source file, which has been the same all along, when an event for
that file comes in. The file can be read then. -/
structure SaveArrives (s₀ : Session) (h₀ : Host) (ms : List Moment) (s : Session) (h : Host) (e : FileEvent)
    (code : Text) : Prop where
  start_eq : (s₀.start.run h₀).1.2 = none
  run : Run (s₀.start.run h₀).1.1 (s₀.start.run h₀).2 ms s h
  file_of_mem : ∀ m ∈ ms, m.session.file m.host = s₀.file h₀
  file_eq : s.file h = s₀.file h₀
  isRunning : s.watcher.isRunning = true
  isSaveOf : e.IsSaveOf h.directory (s.file h)
  text_eq : h.text s.build.source = .ok code

/-- When the text of a saved file is shown: always if no save was reported half a second before or less, and
otherwise the event changes nothing. -/
theorem code_deliver_of_saveArrives {s₀ s : Session} {h₀ h : Host} {ms : List Moment} {e : FileEvent} {code : Text}
    (ha : SaveArrives s₀ h₀ ms s h e code) :
    ((∀ last ∈ Watcher.lastReport? (records ms), last.withinHalfSecond h.instant = false) →
        ((s.deliver e).run h).1.build.code = code) ∧
      ∀ last ∈ Watcher.lastReport? (records ms), last.withinHalfSecond h.instant = true →
        ((s.deliver e).run h).1 = s := by
  have hwatch := watch_of_started ha.start_eq ha.run ha.file_of_mem ha.isRunning
  have hsave := ha.isSaveOf
  rw [ha.file_eq] at hsave
  constructor
  · intro hlast
    rw [code_deliver_of_isDue hwatch (Watch.isDue_iff.mpr ⟨hsave, hlast⟩), ha.text_eq]
    rfl
  · intro last hmem hclose
    refine fst_deliver_of_not_isDue hwatch (Bool.eq_false_iff.mpr fun hdue => ?_)
    have hfar := (Watch.isDue_iff.mp hdue).2 last hmem
    rw [hclose] at hfar
    cases hfar

def startedSession : Session := (listingSession.start.run loadedHost).1.1

def startedHost : Host := (listingSession.start.run loadedHost).2

def savedSession : Session := ((startedSession.take (.deliver (sourceEvent .modified))).run startedHost).1

def savedHost : Host := ((startedSession.take (.deliver (sourceEvent .modified))).run startedHost).2

/-- The host after that, at a reading of the clock and with another text in the source file. -/
def rewrittenHost (time : Instant) : Host :=
  { savedHost.withEntry "/work/x.jai" (.file (Utf8.encode "f :: () {}\n")) with instant := time }

def firstSave : List Moment := [⟨startedSession, startedHost, .deliver (sourceEvent .modified)⟩]

theorem run_firstSave (time : Instant) :
    Run startedSession startedHost firstSave savedSession (rewrittenHost time) :=
  .host _ (.step (.deliver (sourceEvent .modified)) .refl)

theorem evaluated_firstSave : (listingSession.start.run loadedHost).1.2.isNone = true ∧
    startedSession.build.source = "/work/x.jai".toList ∧ savedSession.build.source = "/work/x.jai".toList ∧
      savedSession.watcher = ⟨some ⟨⟨["work", "x.jai"], false⟩, some 0⟩⟩ := by
  decide +kernel

theorem resolve_source (directory : Text) : Path.resolve directory "/work/x.jai" = ⟨["work", "x.jai"], false⟩ := rfl

theorem file_of_source_eq {s : Session} (hs : s.build.source = "/work/x.jai".toList) (h : Host) :
    s.file h = listingSession.file loadedHost := by
  have hlisting : listingSession.file loadedHost = ⟨["work", "x.jai"], false⟩ := resolve_source loadedHost.directory
  rw [hlisting, file, hs, Host.resolve, resolve_source]

theorem text_withEntry (h : Host) (path : Text) (bytes : List UInt8) (time : Instant) :
    { h.withEntry path (.file bytes) with instant := time }.text path = readText bytes := by
  have hentry : Host.entry? { h.withEntry path (.file bytes) with instant := time } path = some (.file bytes) :=
    Files.get?_insert_self _ _ _
  rw [Host.text, Host.bytes, hentry]
  rfl

theorem saveArrives_firstSave (time : Instant) :
    SaveArrives listingSession loadedHost firstSave savedSession (rewrittenHost time) (sourceEvent .created)
      "f :: () {}\n".toList := by
  obtain ⟨hstart, hstarted, hsaved, hwatcher⟩ := evaluated_firstSave
  constructor
  case start_eq => exact Option.isNone_iff_eq_none.mp hstart
  case run => exact run_firstSave time
  case file_of_mem =>
    intro m hm
    rw [List.mem_singleton.mp hm]
    dsimp only
    rw [file_of_source_eq hstarted]
  case file_eq => exact file_of_source_eq hsaved _
  case isRunning =>
    rw [hwatcher]
    rfl
  case isSaveOf =>
    have hextension : Path.extension "/work/x.jai" = Path.sourceExtension := by decide +kernel
    rw [file, hsaved]
    exact ⟨rfl, "/work/x.jai", .inl ⟨.inr rfl, rfl⟩, by decide, hextension, rfl⟩
  case text_eq =>
    rw [hsaved, rewrittenHost, text_withEntry]
    rfl

/-- The second save is a second after the first one, and is shown. -/
theorem code_deliver_of_saveArrives_second :
    SaveArrives listingSession loadedHost firstSave savedSession (rewrittenHost Instant.perSecond)
        (sourceEvent .created) "f :: () {}\n".toList ∧
      Watcher.lastReport? (records firstSave) = some 0 ∧
      ((savedSession.deliver (sourceEvent .created)).run (rewrittenHost Instant.perSecond)).1.build.code =
        "f :: () {}\n".toList := by
  have ha := saveArrives_firstSave Instant.perSecond
  have hlast : Watcher.lastReport? (records firstSave) = some 0 := by decide +kernel
  refine ⟨ha, hlast, (code_deliver_of_saveArrives ha).1 fun last hmem => ?_⟩
  rw [hlast] at hmem
  cases hmem
  decide +kernel

/-- The second save is half a second after the first one, and the text from before it stays. -/
theorem exists_saveArrives_code_ne :
    ∃ s₀ h₀ ms s h e code, (load "/work/x.jai").run.run listingHost = (.ok s₀, h₀) ∧
      SaveArrives s₀ h₀ ms s h e code ∧ ((s.deliver e).run h).1.build.code ≠ code :=
  ⟨listingSession, loadedHost, _, _, _, _, _, run_load_listing, saveArrives_firstSave Instant.halfSecond,
    by decide +kernel⟩

end Session

end DisasmLens
