import DisasmLens.Proofs.Footprint
import DisasmLens.Proofs.LatestBuild
import DisasmLens.Proofs.WatcherRuns

/-!
# When builds are published

A refresh publishes once, and what it publishes is the build that it leaves. No fault keeps it from doing so.
Over a run the builds published are those that were asked for and those of saved files (`length_published_of_run`).
-/

namespace DisasmLens

theorem Toolchain.leaves_useCompiler {β : Type} {view : Host → β} (hv : Host.HidesLogs view) (t : Toolchain)
    (name : Json) : Attempt.Leaves view (t.useCompiler name) :=
  .bind (leaves_locate hv _ _) fun _ => .pure _

namespace Session

/-! ### One refresh -/

theorem isSubscribed_refresh (s : Session) (h : Host) : (s.refresh.run h).1.isSubscribed = s.isSubscribed := by
  obtain ⟨build, published, hs⟩ := exists_fst_refresh s h
  rw [hs]

theorem published_refresh {s : Session} (hs : s.isSubscribed = true) (h : Host) :
    (s.refresh.run h).1.published = s.published ++ [(s.refresh.run h).1.build] := by
  obtain ⟨time, ht⟩ := fst_refresh s h
  rw [ht, publish, if_pos hs]

/-! ### One step -/

namespace Moment

def isRequest (m : Moment) : Bool :=
  match m.step with
  | .refresh | .setFlags _ | .start => true
  | .stop | .deliver _ | .setSource _ | .useCompiler _ => false

def isSave (m : Moment) : Bool :=
  match m.step with
  | .deliver event => ((m.session.watcher.deliver event).run m.host).1.2.isSome
  | .refresh | .setFlags _ | .start | .stop | .setSource _ | .useCompiler _ => false

theorem exists_refresh_of_builds {m : Moment} (hb : (m.isRequest || m.isSave) = true) :
    ∃ s h watcher, m.next.1 = { ((refresh s).run h).1 with watcher } ∧ s.published = m.session.published ∧
      s.isSubscribed = m.session.isSubscribed := by
  obtain ⟨s, h, step⟩ := m
  cases step with
  | refresh => exact ⟨s, h, _, rfl, rfl, rfl⟩
  | setFlags flags => exact ⟨{ s with flags }, h, _, rfl, rfl, rfl⟩
  | start =>
    obtain ⟨watcher, hw⟩ := fst_start s h
    exact ⟨s, h, watcher, hw, rfl, rfl⟩
  | deliver event =>
    dsimp only [isRequest, isSave, Bool.false_or] at hb
    dsimp only [next, take]
    rw [run_deliver]
    cases hd : (s.watcher.deliver event).run h with
    | mk answer h₁ =>
      obtain ⟨watcher, saved⟩ := answer
      rw [hd] at hb
      cases saved with
      | none => cases hb
      | some path => exact ⟨{ s with watcher }, h₁, _, rfl, rfl, rfl⟩
  | stop => cases hb
  | setSource path => cases hb
  | useCompiler name => cases hb

theorem published_next_of_builds {m : Moment} (hs : m.session.isSubscribed = true)
    (hb : (m.isRequest || m.isSave) = true) :
    m.next.1.published = m.session.published ++ [m.next.1.build] := by
  obtain ⟨s, h, watcher, hnext, hp, hsub⟩ := exists_refresh_of_builds hb
  rw [hnext, ← hp]
  exact published_refresh (hsub.trans hs) h

/-- A step that does not build publishes nothing, runs no tool, and changes nothing of the build but its source file. -/
theorem next_of_not_builds {m : Moment} (hb : (m.isRequest || m.isSave) = false) :
    m.next.1.published = m.session.published ∧ m.next.1.isSubscribed = m.session.isSubscribed ∧
      m.next.2.journal.runs = m.host.journal.runs ∧
      ((∀ path, m.step ≠ .setSource path) → m.next.1.build = m.session.build) := by
  obtain ⟨s, h, step⟩ := m
  cases step with
  | refresh => cases hb
  | setFlags flags => cases hb
  | start => cases hb
  | deliver event =>
    dsimp only [isRequest, isSave, Bool.false_or] at hb
    dsimp only [next, take]
    rw [run_deliver]
    obtain ⟨logs, hlogs⟩ := s.watcher.snd_deliver event h
    cases hd : (s.watcher.deliver event).run h with
    | mk answer h₁ =>
      obtain ⟨watcher, saved⟩ := answer
      rw [hd] at hb hlogs
      cases saved with
      | some path => cases hb
      | none =>
        dsimp only at hlogs ⊢
        rw [hlogs]
        exact ⟨rfl, rfl, rfl, fun _ => rfl⟩
  | stop =>
    obtain ⟨observer, hobserver⟩ := s.watcher.snd_stop h
    have hnext : (Moment.mk s h .stop).next.2 = (s.watcher.stop.run h).2 := rfl
    rw [hnext, hobserver]
    exact ⟨rfl, rfl, rfl, fun _ => rfl⟩
  | setSource path => exact ⟨rfl, rfl, rfl, fun hne => absurd rfl (hne path)⟩
  | useCompiler name =>
    obtain ⟨toolchain, ht⟩ := s.fst_useCompiler name h
    have hsession : (Moment.mk s h (.useCompiler name)).next.1 = { s with toolchain } := ht
    have hhost : (Moment.mk s h (.useCompiler name)).next.2 = ((s.toolchain.useCompiler name).run.run h).2 :=
      s.snd_useCompiler name h
    have hhides : Host.HidesLogs fun h => h.journal.runs := fun _ _ => rfl
    rw [hsession, hhost]
    exact ⟨rfl, rfl, s.toolchain.leaves_useCompiler hhides name h, fun _ => rfl⟩

theorem isSubscribed_next (m : Moment) : m.next.1.isSubscribed = m.session.isSubscribed := by
  cases hb : m.isRequest || m.isSave with
  | false => exact (next_of_not_builds hb).2.1
  | true =>
    obtain ⟨s, h, watcher, hnext, -, hs⟩ := exists_refresh_of_builds hb
    rw [hnext, ← hs]
    exact isSubscribed_refresh s h

theorem isSave_of_isRequest {m : Moment} (h : m.isRequest = true) : m.isSave = false := by
  obtain ⟨s, _, step⟩ := m
  cases step with
  | deliver event => cases h
  | _ => rfl

theorem length_published_next {m : Moment} (hs : m.session.isSubscribed = true) :
    m.next.1.published.length = m.session.published.length + (m.isRequest.toNat + m.isSave.toNat) := by
  cases hb : m.isRequest || m.isSave with
  | false =>
    rw [(next_of_not_builds hb).1, (Bool.or_eq_false_iff.mp hb).1, (Bool.or_eq_false_iff.mp hb).2]
    rfl
  | true =>
    rw [published_next_of_builds hs hb, List.length_append, List.length_singleton]
    cases hq : m.isRequest with
    | true => rw [isSave_of_isRequest hq]; rfl
    | false =>
      rw [hq, Bool.false_or] at hb
      rw [hb]
      rfl

end Moment

/-! ### Whole runs -/

theorem isSubscribed_of_run {start s : Session} {startHost h : Host} {ms : List Moment}
    (hr : Run start startHost ms s h) (hs : start.isSubscribed = true) :
    s.isSubscribed = true ∧ ∀ m ∈ ms, m.session.isSubscribed = true := by
  induction hr with
  | refl => exact ⟨hs, fun _ hm => nomatch hm⟩
  | @step ms s h step _ ih =>
    have hnext := Moment.isSubscribed_next ⟨s, h, step⟩
    exact ⟨hnext.trans ih.1, List.forall_mem_cons.mpr ⟨ih.1, ih.2⟩⟩
  | host _ _ ih => exact ih

theorem length_published_eq_countP {start s : Session} {startHost h : Host} {ms : List Moment}
    (hr : Run start startHost ms s h) (hs : start.isSubscribed = true) :
    s.published.length = start.published.length + (ms.countP Moment.isRequest + ms.countP Moment.isSave) := by
  induction hr with
  | refl => rfl
  | @step ms s h step hr ih =>
    have hnext := Moment.length_published_next (m := ⟨s, h, step⟩) (isSubscribed_of_run hr hs).1
    rw [ih] at hnext
    refine hnext.trans ?_
    rw [List.countP_cons, List.countP_cons]
    cases Moment.isRequest ⟨s, h, step⟩ <;> cases Moment.isSave ⟨s, h, step⟩ <;> simp <;> omega
  | host _ _ ih => exact ih

/-- Over a run each request and each save is published once. A refresh publishes the build that it leaves, and that is
what its outcome says, be it a fault or not. All other steps publish nothing, run no tool and leave the build. -/
theorem length_published_of_run {start s : Session} {startHost h : Host} {ms : List Moment}
    (hr : Run start startHost ms s h) (hs : start.isSubscribed = true) :
    s.published.length = start.published.length + (ms.countP Moment.isRequest + ms.countP Moment.isSave) ∧
      (s.refresh.run h).1.published = s.published ++ [(s.refresh.run h).1.build] ∧
      (∃ time, (s.refresh.run h).1.build = (s.refreshOn h).outcome.update s.flags time s.build) ∧
      ∀ m ∈ ms, if m.isRequest || m.isSave then m.next.1.published = m.session.published ++ [m.next.1.build]
        else m.next.1.published = m.session.published ∧ m.next.2.journal.runs = m.host.journal.runs ∧
          ((∀ path, m.step ≠ .setSource path) → m.next.1.build = m.session.build) := by
  obtain ⟨hsub, hall⟩ := isSubscribed_of_run hr hs
  refine ⟨length_published_eq_countP hr hs, published_refresh hsub h, build_refresh s h, fun m hm => ?_⟩
  split
  · rename_i hb
    exact Moment.published_next_of_builds (hall m hm) hb
  · rename_i hb
    obtain ⟨hp, -, hruns, hbuild⟩ := Moment.next_of_not_builds (Bool.not_eq_true _ ▸ hb)
    exact ⟨hp, hruns, hbuild⟩

def listingSession : Session where
  build := { source := "/work/x.jai" }
  toolchain :=
    { settings := Settings.defaults
      compiler := ⟨Settings.defaultCompiler, some "/bin/jai"⟩
      disassembler := ⟨Settings.defaultDisassembler, some "/bin/objdump"⟩ }

def loadedHost : Host := ((load "/work/x.jai").run.run listingHost).2

theorem run_load_listing : (load "/work/x.jai").run.run listingHost = (.ok listingSession, loadedHost) := rfl

def sourceEvent (change : FileChange) : FileEvent := { change, path := "/work/x.jai" }

/-- The file is saved, which brings two events, and it is gone when the arguments are changed. -/
theorem length_published_of_run_listing :
    ∃ ms s h, Run listingSession loadedHost ms s h ∧ listingSession.isSubscribed = true ∧
      ms.length = 6 ∧ ms.countP Moment.isRequest = 2 ∧ ms.countP Moment.isSave = 1 ∧
      s.published.length = 3 ∧ (s.refresh.run h).1.published = s.published ++ [(s.refresh.run h).1.build] := by
  have hsaved : Run listingSession loadedHost _ _ _ :=
    .step (.useCompiler (.ofText "jai2".toList)) (.step (.deliver (sourceEvent .created))
      (.step (.deliver (sourceEvent .modified)) (.step .start .refl)))
  have hr := Run.step .stop (Run.step (.setFlags ["-release"]) (hsaved.host (loadedHost.withoutEntry "/work/x.jai")))
  obtain ⟨hlength, hlast, -⟩ := length_published_of_run hr rfl
  refine ⟨_, _, _, hr, rfl, rfl, ?_, ?_, hlength.trans ?_, hlast⟩
  · decide +kernel
  · decide +kernel
  · decide +kernel

end Session

end DisasmLens
