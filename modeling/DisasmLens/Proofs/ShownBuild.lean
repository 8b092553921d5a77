import DisasmLens.Proofs.BarLine
import DisasmLens.Proofs.Notices
import DisasmLens.Screen

/-!
# What the screen shows

Every build that is published leaves a message, and handling a message shows the latest build, be it the one that was
published with the message or a newer one. So a screen that has handled all its messages shows the build that its session
has, unless an event has broken the screen down. That happens when the text for the status bar is refused by the library
that draws the screen, and only then (`Screen.shows_of_reached`). What is known of the library is `Renderer.IsDocumented`.
-/

namespace DisasmLens

open Session (Moment Step)

theorem Build.isShowable_eq_false_iff {b : Build} :
    b.isShowable = false ↔ b.hasErrors = true ∨ b.listing = [] := by
  rw [isShowable, Bool.and_eq_false_iff, Bool.not_eq_false', decide_eq_false_iff_not, Decidable.not_not]

theorem Session.isSubscribed_load {source : Text} {s : Session} {h h' : Host}
    (hl : (load source).run.run h = (.ok s, h')) : s.isSubscribed = true := by
  obtain ⟨toolchain, h₁, -, hs⟩ := Attempt.run_bind_eq_ok hl
  cases hs
  rfl

namespace Screen

variable {render : Renderer}

/-- The screen shows a build: its listing or its report, and the rest in the status bar. The line that is shown is what
the library makes of the bar's text, which is the text itself if the file and the arguments have no marks. -/
structure Shows (render : Renderer) (s : Screen) (b : Build) : Prop where
  main :
    if b.hasErrors = true ∨ b.listing = [] then
      s.displaysReport = true ∧ s.displaysListing = false ∧ s.report = b.reportOr "No disassembly produced."
        ∧ s.bar.status = "error".toList
    else
      s.displaysListing = true ∧ s.displaysReport = false ∧ s.listing = Markup.listing b.listing
        ∧ s.bar.status = "ok".toList
  flags : s.bar.flags = ShellWords.join b.flags
  labels : s.bar.labels = b.summary.labels
  instructions : s.bar.instructions = b.summary.instructions
  errors : s.bar.errors = (b.diagnostics.countP Diagnostic.isError : Nat)
  line : render s.bar.text = .ok s.bar.line
  literal : s.bar.file.marks = [] → s.bar.flags.marks = [] → s.bar.line = s.bar.text

/-- The screens that can be come to while none breaks down. Between two events anything may happen to the host. -/
inductive Reached (render : Renderer) : Screen → Host → Prop
  | mount {source : Text} {session : Session} {s : Screen} {h made before after : Host} (flags : List Text)
      (hl : (Session.load source).run.run h = (.ok session, made))
      (hm : (mount render { session with flags }).run.run before = (.ok s, after)) : Reached render s after
  | handle {s next : Screen} {h after : Host} (event : Event) (hr : Reached render s h)
      (hh : (s.handle render event).run.run h = (.ok next, after)) : Reached render next after
  | host {s : Screen} {h : Host} (h' : Host) (hr : Reached render s h) : Reached render s h'

/-! ### One event -/

def nextBar? (s : Screen) : Event → Option StatusBar
  | .rebuild => some (s.bar.apply { status := some "compiling".toList })
  | .message => if s.pending = 0 then none else some (s.bar.apply (barChange s.session.build))
  | .edit | .submit _ | .leave | .file _ => none

def breakdown? (render : Renderer) (s : Screen) (event : Event) : Option Text :=
  (s.nextBar? event).bind fun bar => render.defect? bar.text

inductive Change (render : Renderer) (s : Screen) (h : Host) : Screen → Prop
  | editor (editor : FlagsEditor) : Change render s h { s with editor }
  | step (editor : FlagsEditor) (step : Step) (hs : ∀ path, step ≠ .setSource path) :
      Change render s h { s with editor, session := ((s.session.take step).run h).1 }
  | rebuild (bar : StatusBar) : Change render s h { s with bar, session := ((s.session.take .refresh).run h).1 }
  | message {line : Text} (hp : s.pending ≠ 0)
      (hl : render (s.bar.apply (barChange s.session.build)).text = .ok line) :
      Change render s h { s.presentBuild s.session.build with
        bar := { s.bar.apply (barChange s.session.build) with line }, handled := s.handled + 1 }

theorem present_eq (render : Renderer) (s : Screen) :
    s.present render =
      match render (s.bar.apply (barChange s.session.build)).text with
      | .error message => .error (.markup message)
      | .ok line => .ok { s.presentBuild s.session.build with
          bar := { s.bar.apply (barChange s.session.build) with line }, handled := s.handled + 1 } := by
  unfold present StatusBar.change
  dsimp only
  cases render (s.bar.apply (barChange s.session.build)).text <;> rfl

theorem run_rebuild (render : Renderer) (s : Screen) (h : Host) :
    let bar := s.bar.apply { status := some "compiling".toList }
    (s.rebuild render).run.run h =
      match render bar.text with
      | .error message => (.error (.markup message), h)
      | .ok line =>
        (.ok { s with bar := { bar with line }, session := (s.session.refresh.run h).1 },
          (s.session.refresh.run h).2) := by
  intro bar
  unfold rebuild StatusBar.change
  rw [Attempt.run_ofExcept_bind]
  cases render bar.text <;> rfl

theorem handle_cases (render : Renderer) (s : Screen) (event : Event) (h : Host) :
    match s.breakdown? render event with
    | some message => ((s.handle render event).run.run h).1 = .error (.markup message)
    | none => ∃ next after, (s.handle render event).run.run h = (.ok next, after) ∧ s.Change render h next := by
  cases event with
  | rebuild =>
    have hrun : (s.handle render .rebuild).run.run h = (s.rebuild render).run.run h := rfl
    rw [hrun, run_rebuild, breakdown?, nextBar?, Option.bind_some, Renderer.defect?]
    cases render (s.bar.apply { status := some "compiling".toList }).text with
    | error message => rfl
    | ok line => exact ⟨_, _, rfl, .rebuild _⟩
  | edit => exact ⟨_, _, rfl, .editor _⟩
  | submit line =>
    refine ⟨((s.submit line).run h).1, ((s.submit line).run h).2, rfl, ?_⟩
    unfold submit
    cases hw : s.editor.submit line with
    | mk editor flags =>
      cases flags with
      | none => exact .editor editor
      | some flags => exact .step editor (.setFlags flags) fun _ => Step.noConfusion
  | leave => exact ⟨_, _, rfl, .editor _⟩
  | file event => exact ⟨_, _, rfl, .step s.editor (.deliver event) fun _ => Step.noConfusion⟩
  | message =>
    have hrun : (s.handle render .message).run.run h =
        (if s.pending = 0 then return s else Attempt.ofExcept (s.present render) : Attempt Screen).run.run h := rfl
    rw [hrun, breakdown?, nextBar?]
    by_cases hp : s.pending = 0
    · rw [if_pos hp, if_pos hp]
      exact ⟨_, _, rfl, .editor s.editor⟩
    · rw [if_neg hp, if_neg hp, Attempt.run_ofExcept, present_eq, Option.bind_some, Renderer.defect?]
      cases hl : render (s.bar.apply (barChange s.session.build)).text with
      | error message => rfl
      | ok line => exact ⟨_, _, rfl, .message hp hl⟩

theorem marks_status_barChange (bar : StatusBar) (b : Build) : (bar.apply (barChange b)).status.marks = [] := by
  show Text.marks (if b.isShowable then "ok".toList else "error".toList) = []
  split <;> decide

theorem marks_status_nextBar {s : Screen} {event : Event} {bar : StatusBar} (hb : s.nextBar? event = some bar) :
    bar.status.marks = [] := by
  cases event with
  | rebuild =>
    cases hb
    show Text.marks "compiling" = []
    decide
  | message =>
    by_cases hp : s.pending = 0
    · rw [nextBar?, if_pos hp] at hb
      cases hb
    · rw [nextBar?, if_neg hp] at hb
      cases hb
      exact marks_status_barChange s.bar s.session.build
  | edit | submit | leave | file => cases hb

/-- Without marks in the file and in the arguments nothing breaks down. -/
theorem exists_marks_of_breakdown {s : Screen} {event : Event} {message : Text} (hd : render.IsDocumented)
    (hb : s.breakdown? render event = some message) :
    ∃ bar, s.nextBar? event = some bar ∧ (bar.file.marks ≠ [] ∨ bar.flags.marks ≠ []) := by
  obtain ⟨bar, hbar, hdefect⟩ := Option.bind_eq_some_iff.mp hb
  refine ⟨bar, hbar, Decidable.or_iff_not_not_and_not.mpr fun ⟨hfile, hflags⟩ => ?_⟩
  have hl := hd.render_text (Decidable.not_not.mp hfile) (Decidable.not_not.mp hflags) (marks_status_nextBar hbar)
  rw [Renderer.defect?, hl] at hdefect
  cases hdefect

/-! ### What holds all the time -/

/-- The screen is as far as its messages are: no build is missed, and the latest one is shown when no message is left.
-/
structure Timely (render : Renderer) (s : Screen) : Prop where
  isSubscribed : s.session.isSubscribed = true
  handled_le : s.handled ≤ s.session.published.length
  shows : s.pending = 0 → 0 < s.handled → s.Shows render s.session.build

theorem shows_presented (hd : render.IsDocumented) {s : Screen} {b : Build} {line : Text} (handled : Nat)
    (hl : render (s.bar.apply (barChange b)).text = .ok line) :
    Shows render { s.presentBuild b with bar := { s.bar.apply (barChange b) with line }, handled } b := by
  have hstatus : (s.bar.apply (barChange b)).status = if b.isShowable then "ok".toList else "error".toList := rfl
  refine ⟨?_, rfl, rfl, rfl, rfl, hl, fun hfile hflags => ?_⟩
  case refine_2 =>
    exact Except.ok.inj (hl.symm.trans (hd.render_text hfile hflags (marks_status_barChange s.bar b)))
  unfold presentBuild
  dsimp only
  rw [hstatus]
  by_cases hb : b.hasErrors = true ∨ b.listing = []
  · have hshowable := Build.isShowable_eq_false_iff.mpr hb
    simp only [hshowable, if_pos hb, Bool.false_eq_true, if_false, and_self]
  · have hshowable := eq_true_of_ne_false (mt Build.isShowable_eq_false_iff.mp hb)
    simp only [hshowable, if_neg hb, if_true, and_self]

/-- What the user sees but for the editor. -/
def face (s : Screen) : Bool × Bool × Styled × Text × StatusBar :=
  (s.displaysListing, s.displaysReport, s.listing, s.report, s.bar)

theorem Shows.congr {s next : Screen} {b : Build} (hs : s.Shows render b) (hface : next.face = s.face) :
    next.Shows render b := by
  obtain ⟨session, bar, editor, displaysListing, displaysReport, listing, report, handled⟩ := next
  obtain ⟨rfl, rfl, rfl, rfl, rfl⟩ : displaysListing = s.displaysListing ∧ displaysReport = s.displaysReport ∧
      listing = s.listing ∧ report = s.report ∧ bar = s.bar := by
    simpa only [face, Prod.mk.injEq] using hface
  exact ⟨hs.main, hs.flags, hs.labels, hs.instructions, hs.errors, hs.line, hs.literal⟩

/-- What a step of the session leaves is shown already, or a message of it is still to come. -/
theorem Timely.of_step {s next : Screen} {m : Moment} (ht : s.Timely render) (hm : m.session = s.session)
    (hs : ∀ path, m.step ≠ .setSource path) (hsession : next.session = m.next.1) (hhandled : next.handled = s.handled)
    (hface : (m.isRequest || m.isSave) = false → next.face = s.face) : next.Timely render := by
  obtain ⟨hsub, hle, hshows⟩ := ht
  rw [← hm] at hsub hle hshows
  have hsub' : next.session.isSubscribed = true := by
    rw [hsession, Moment.isSubscribed_next, hsub]
  cases hb : m.isRequest || m.isSave with
  | true =>
    have hlength : next.session.published.length = m.session.published.length + 1 := by
      rw [hsession, Moment.published_next_of_builds hsub hb, List.length_append, List.length_singleton]
    refine ⟨hsub', by omega, fun hp => ?_⟩
    have hpending : next.session.published.length - next.handled = 0 := hp
    omega
  | false =>
    obtain ⟨hpublished, -, -, hbuild⟩ := Moment.next_of_not_builds hb
    rw [← hsession] at hpublished hbuild
    have hpending : next.pending = s.pending := by
      rw [pending, pending, hpublished, hhandled, hm]
    refine ⟨hsub', by rw [hpublished, hhandled]; exact hle, fun hp hpos => ?_⟩
    rw [hpending] at hp
    rw [hhandled] at hpos
    rw [hbuild hs]
    exact (hshows hp hpos).congr (hface hb)

theorem Timely.of_change {s next : Screen} {h : Host} (hd : render.IsDocumented) (ht : s.Timely render)
    (hc : s.Change render h next) : next.Timely render := by
  cases hc with
  | editor editor => exact ⟨ht.isSubscribed, ht.handled_le, fun hp hpos => (ht.shows hp hpos).congr rfl⟩
  | step editor step hs => exact ht.of_step (m := ⟨s.session, h, step⟩) rfl hs rfl rfl fun _ => rfl
  | rebuild bar =>
    exact ht.of_step (m := ⟨s.session, h, .refresh⟩) rfl (fun _ => Step.noConfusion) rfl rfl fun hb => nomatch hb
  | message hp hl =>
    have hsession : (s.presentBuild s.session.build).session = s.session := by
      unfold presentBuild
      split <;> rfl
    have hlt : s.handled < s.session.published.length := Nat.lt_of_sub_ne_zero hp
    exact
      { isSubscribed := (congrArg Session.isSubscribed hsession).trans ht.isSubscribed
        handled_le := by
          show s.handled + 1 ≤ (s.presentBuild s.session.build).session.published.length
          rw [hsession]
          exact hlt
        shows := fun _ _ => by
          show Shows _ _ (s.presentBuild s.session.build).session.build
          rw [hsession]
          exact shows_presented hd (s.handled + 1) hl }

theorem timely_of_mount {source : Text} {session : Session} {s : Screen} {h made before after : Host}
    {flags : List Text} (hl : (Session.load source).run.run h = (.ok session, made))
    (hm : (mount render { session with flags }).run.run before = (.ok s, after)) : s.Timely render := by
  obtain ⟨bar, h₁, -, hrest⟩ := Attempt.run_bind_eq_ok hm
  obtain ⟨⟨started, fault⟩, h₂, hstart, hs⟩ := Attempt.run_bind_eq_ok hrest
  have hsub : started.isSubscribed = true := by
    obtain ⟨watcher, hw⟩ := Session.fst_start { session with flags } h₁
    have hstarted : (({ session with flags } : Session).start.run h₁).1 = (started, fault) :=
      Except.ok.inj (congrArg Prod.fst hstart)
    rw [hstarted] at hw
    have hloaded : session.isSubscribed = true := Session.isSubscribed_load hl
    have hrefreshed := (Session.isSubscribed_refresh { session with flags } h₁).trans hloaded
    exact (congrArg Session.isSubscribed hw).trans hrefreshed
  cases fault with
  | some f => cases hs
  | none =>
    cases hs
    exact ⟨hsub, Nat.zero_le _, fun _ hpos => absurd hpos (Nat.lt_irrefl 0)⟩

theorem timely_of_reached {s : Screen} {h : Host} (hd : render.IsDocumented) (hr : Reached render s h) :
    s.Timely render := by
  induction hr with
  | mount flags hl hm => exact timely_of_mount hl hm
  | @handle s next h after event hr hh ih =>
    have hcases := s.handle_cases render event h
    split at hcases
    · rw [hh] at hcases
      cases hcases
    · obtain ⟨next', after', hh', hc⟩ := hcases
      cases hh.symm.trans hh'
      exact ih.of_change hd hc
  | host h' hr ih => exact ih

/-- A screen that has handled a message and has none left shows the build of its session. An event leads to such a
screen again, unless it breaks the screen down: the text for the status bar is refused, which has a mark in the file or
in the arguments. -/
theorem shows_of_reached {s : Screen} {h : Host} (hd : render.IsDocumented) (hr : Reached render s h) :
    (s.pending = 0 → 0 < s.handled → s.Shows render s.session.build) ∧
      ∀ (event : Event) (host : Host), match s.breakdown? render event with
        | some message => ((s.handle render event).run.run host).1 = .error (.markup message) ∧
          ∃ bar, s.nextBar? event = some bar ∧ (bar.file.marks ≠ [] ∨ bar.flags.marks ≠ [])
        | none => ∃ next after, (s.handle render event).run.run host = (.ok next, after) ∧
          (next.pending = 0 → 0 < next.handled → next.Shows render next.session.build) := by
  have ht := timely_of_reached hd hr
  refine ⟨ht.shows, fun event host => ?_⟩
  have hcases := s.handle_cases render event host
  cases hb : s.breakdown? render event with
  | some message =>
    rw [hb] at hcases
    exact ⟨hcases, exists_marks_of_breakdown hd hb⟩
  | none =>
    rw [hb] at hcases
    obtain ⟨next, after, hh, hc⟩ := hcases
    exact ⟨next, after, hh, (ht.of_change hd hc).shows⟩

/-! ### Runs on a host -/

def handleAll (render : Renderer) (s : Screen) (events : List Event) : Attempt Screen :=
  events.foldlM (handle render) s

theorem Reached.handleAll {s next : Screen} {h after : Host} {events : List Event} (hr : Reached render s h)
    (hh : (s.handleAll render events).run.run h = (.ok next, after)) : Reached render next after := by
  induction events generalizing s h with
  | nil =>
    cases hh
    exact hr
  | cons event events ih =>
    obtain ⟨s₁, h₁, hfirst, hrest⟩ := Attempt.run_bind_eq_ok hh
    exact ih (hr.handle event hfirst) hrest

def runsTo (render : Renderer) (source : Text) (flags : List Text) (events : List Event) (h : Host)
    (test : Screen → Bool) : Bool :=
  Session.loadsTo source h fun session h =>
    match (mount render { session with flags }).run.run h with
    | (.ok s, h) =>
      match (s.handleAll render events).run.run h with
      | (.ok s, _) => test s
      | (.error _, _) => false
    | (.error _, _) => false

theorem exists_of_runsTo {source : Text} {flags : List Text} {events : List Event} {h : Host}
    {test : Screen → Bool} (ht : runsTo render source flags events h test = true) :
    ∃ s after, Reached render s after ∧ test s = true := by
  obtain ⟨session, made, hl, ht⟩ := Session.exists_of_loadsTo ht
  split at ht
  · rename_i mounted h₁ hm
    split at ht
    · rename_i s after hh
      exact ⟨s, after, (Reached.mount flags hl hm).handleAll hh, ht⟩
    · cases ht
  · cases ht

/-- The second build makes no listing. The first one's listing is kept, and what is shown is the report. -/
theorem shows_of_reached_rebuilt :
    Renderer.tagless.IsDocumented ∧
      ∃ s h, Reached Renderer.tagless s h ∧ s.pending = 0 ∧ s.handled = 2 ∧ s.displaysReport = true ∧
        s.listing.plain ≠ [] ∧ s.Shows Renderer.tagless s.session.build := by
  have hd := Renderer.isDocumented_tagless
  have ht : runsTo Renderer.tagless "/work/x.jai" ["-x64"] [.message, .rebuild, .message] Session.listingHost
      (fun s => s.pending = 0 && s.handled = 2 && s.displaysReport && s.listing.plain ≠ []) = true := by
    decide +kernel
  obtain ⟨s, h, hr, htest⟩ := exists_of_runsTo ht
  simp only [Bool.and_eq_true, decide_eq_true_iff] at htest
  obtain ⟨⟨⟨hp, hh⟩, hreport⟩, hlisting⟩ := htest
  exact ⟨hd, s, h, hr, hp, hh, hreport, hlisting, (shows_of_reached hd hr).1 hp (by omega)⟩

def firstBar (source : Text) : StatusBar :=
  ({} : StatusBar).apply { file := some (Path.baseName source), status := some "compiling".toList }

theorem run_mount_of_start (session : Session) {started : Session} {line : Text} {h after : Host}
    (hl : render (firstBar session.build.source).text = .ok line)
    (hs : session.start.run h = ((started, none), after)) :
    (mount render session).run.run h =
      (.ok { session := started, bar := { firstBar session.build.source with line } }, after) := by
  have hchange : ({} : StatusBar).change render
      { file := some (Path.baseName session.build.source), status := some "compiling".toList } =
      .ok { firstBar session.build.source with line } := by
    rw [StatusBar.change, ← firstBar, hl]
  have hstart : (liftM session.start : Attempt _).run.run h = (.ok (started, none), after) :=
    congrArg (fun out : (Session × Option Fault) × Host => (Except.ok out.1, out.2)) hs
  unfold mount
  rw [hchange, Attempt.run_ofExcept_bind]
  dsimp only
  rw [Attempt.run_bind_of_eq_ok hstart]
  rfl

theorem fst_handle_message_of_error {s : Screen} {message : Text} (hp : s.pending ≠ 0)
    (hr : render (s.bar.apply (barChange s.session.build)).text = .error message) (h : Host) :
    ((s.handle render .message).run.run h).1 = .error (.markup message) := by
  have hbreak : s.breakdown? render .message = some message := by
    rw [breakdown?, nextBar?, if_neg hp, Option.bind_some, Renderer.defect?, hr]
  have hcases := s.handle_cases render .message h
  rw [hbreak] at hcases
  exact hcases

/-- An argument that looks like a closing tag breaks the screen down when the first message is handled, so that the
build is never shown. -/
theorem exists_reached_breakdown :
    (∃ render : Renderer, render.IsDocumented) ∧
      ∀ render : Renderer, render.IsDocumented → ∃ s h message, Reached render s h ∧ s.pending = 1 ∧
        s.session.build.flags = ["[/b]".toList] ∧
        ((s.handle render .message).run.run h).1 = .error (.markup message) := by
  refine ⟨⟨_, Renderer.isDocumented_tagless⟩, fun render hd => ?_⟩
  have ht : Session.loadsTo "/work/x.jai" Session.errorHost (fun session h =>
      let started := (({ session with flags := ["[/b]"] } : Session).start.run h).1
      decide (session.build.source = "/work/x.jai".toList ∧ started.2 = none ∧ started.1.published.length = 1 ∧
        started.1.build.flags = ["[/b]".toList] ∧
        ((firstBar "/work/x.jai").apply (barChange started.1.build)).text =
          "x.jai  │  flags: '".toList ++ "[/" ++ ['b'] ++ "]" ++
            "'  │  ● error  │  0 instr / 0 labels  │  1 error(s)")) = true := by
    decide +kernel
  obtain ⟨session, before, hl, htest⟩ := Session.exists_of_loadsTo ht
  dsimp only at htest
  cases hstart : ({ session with flags := ["[/b]"] } : Session).start.run before with
  | mk out after =>
    obtain ⟨started, fault⟩ := out
    rw [hstart] at htest
    dsimp only at htest
    obtain ⟨hsource, rfl, hlength, hflags, htext⟩ := of_decide_eq_true htest
    have hfile : (firstBar session.build.source).file.marks = [] := by
      rw [hsource]
      decide
    have hcompiling : Text.marks "compiling" = [] := by decide
    have hfirst := hd.render_text (b := firstBar session.build.source) hfile rfl hcompiling
    have hmount := run_mount_of_start { session with flags := ["[/b]"] } hfirst hstart
    have hbefore : '[' ∉ "x.jai  │  flags: '".toList ∧ '\\' ∉ "x.jai  │  flags: '".toList := by decide
    have hafter : '[' ∉ "'  │  ● error  │  0 instr / 0 labels  │  1 error(s)".toList := by decide +kernel
    have hname : ['b'] ≠ [] ∧ ∀ c ∈ ['b'], c.isAlpha := ⟨List.cons_ne_nil _ _, List.forall_mem_singleton.mpr rfl⟩
    obtain ⟨message, hmessage⟩ := hd.unopened hbefore hname hafter
    refine ⟨_, _, message, .mount ["[/b]"] hl hmount, hlength, hflags, fst_handle_message_of_error ?_ ?_ _⟩
    · show started.published.length - 0 ≠ 0
      omega
    · show render ((firstBar session.build.source).apply (barChange started.build)).text = _
      rw [hsource, htext]
      exact hmessage

end Screen

end DisasmLens
