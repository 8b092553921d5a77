import DisasmLens.Proofs.SavedCode

/-!
# What a refresh goes by

A refresh goes by the path of the source file, the arguments and the toolchain of its session, and by little of its
host: the files, the working directory, what tools will answer and the clock on the wall. Two sessions that share these
take the same course, run the same tools and use up the same answers, whatever they did before. If nothing breaks the
refresh off, then no earlier build shows through, and both come to the same build (`Session.build_refresh_congr`).
-/

namespace DisasmLens

/-! ### Hosts that agree -/

namespace Host

/-- Two hosts agree in all that a build goes by. -/
structure Agrees (g h : Host) : Prop where
  files : g.files = h.files
  directory : g.directory = h.directory
  answers : g.answers = h.answers
  wallClock : g.wallClock = h.wallClock

variable {g h : Host}

theorem Agrees.resolve_eq (hgh : g.Agrees h) (path : Text) : g.resolve path = h.resolve path := by
  rw [resolve, resolve, hgh.directory]

theorem Agrees.locate_eq (hgh : g.Agrees h) (path : Text) : g.locate path = h.locate path := by
  rw [locate, locate, hgh.resolve_eq]

theorem Agrees.entry?_eq (hgh : g.Agrees h) (path : Text) : g.entry? path = h.entry? path := by
  unfold entry?
  rw [hgh.files, hgh.locate_eq]

theorem Agrees.hasEntry_eq (hgh : g.Agrees h) (path : Text) : g.hasEntry path = h.hasEntry path := by
  rw [hasEntry, hasEntry, hgh.entry?_eq]

theorem Agrees.text_eq (hgh : g.Agrees h) (path : Text) : g.text path = h.text path := by
  rw [text, text, bytes, bytes, hgh.entry?_eq]

theorem Agrees.answer_eq (hgh : g.Agrees h) : g.answer = h.answer := by
  rw [answer, answer, hgh.answers]

theorem Agrees.answered (hgh : g.Agrees h) : g.answered.Agrees h.answered where
  files := by
    unfold Host.answered
    dsimp only
    rw [hgh.files, hgh.answer_eq]
    simp only [hgh.locate_eq]
  directory := hgh.directory
  answers := congrArg List.tail hgh.answers
  wallClock := hgh.wallClock

/-- From two hosts to two others by the same runs of tools, each of which uses an answer up. -/
structure ChangeAlike (g h g' h' : Host) : Prop where
  agrees : g'.Agrees h'
  runs : ∃ runs, g'.journal.runs = g.journal.runs ++ runs ∧ h'.journal.runs = h.journal.runs ++ runs ∧
    g'.answers = g.answers.drop runs.length

theorem ChangeAlike.refl (hgh : g.Agrees h) : ChangeAlike g h g h :=
  ⟨hgh, [], (List.append_nil _).symm, (List.append_nil _).symm, rfl⟩

theorem ChangeAlike.trans {g' h' g'' h'' : Host} (hfirst : ChangeAlike g h g' h') (hthen : ChangeAlike g' h' g'' h'') :
    ChangeAlike g h g'' h'' := by
  obtain ⟨-, first, hg, hh, hanswers⟩ := hfirst
  obtain ⟨hagrees, more, hg', hh', hanswers'⟩ := hthen
  refine ⟨hagrees, first ++ more, ?_, ?_, ?_⟩
  · rw [hg', hg, List.append_assoc]
  · rw [hh', hh, List.append_assoc]
  · rw [hanswers', hanswers, List.drop_drop, List.length_append]

def unlogged (h : Host) : Host := { h with journal.logs := [] }

theorem hidesLogs_unlogged : HidesLogs unlogged := fun _ _ => rfl

theorem exists_logs_of_unlogged_eq {h' : Host} (hu : h'.unlogged = h.unlogged) :
    ∃ logs, h' = { h with journal.logs := logs } := by
  refine ⟨h'.journal.logs, ?_⟩
  have hlogged := congrArg (fun k : Host => { k with journal.logs := h'.journal.logs }) hu
  exact hlogged

theorem ChangeAlike.of_unlogged {g' h' g'' h'' : Host} (hc : ChangeAlike g h g' h')
    (hg : g''.unlogged = g'.unlogged) (hh : h''.unlogged = h'.unlogged) : ChangeAlike g h g'' h'' := by
  obtain ⟨logs, rfl⟩ := exists_logs_of_unlogged_eq hg
  obtain ⟨logs', rfl⟩ := exists_logs_of_unlogged_eq hh
  obtain ⟨⟨hfiles, hdirectory, hanswers, hclock⟩, runs, hgr, hhr, hleft⟩ := hc
  exact ⟨⟨hfiles, hdirectory, hanswers, hclock⟩, runs, hgr, hhr, hleft⟩

end Host

/-! ### Attempts that can be repeated -/

variable {α β : Type}

/-- On hosts that agree the attempt comes to the same result by the same runs. -/
def Attempt.IsRepeatable (a : Attempt α) : Prop :=
  ∀ g h : Host, g.Agrees h →
    (a.run.run g).1 = (a.run.run h).1 ∧ Host.ChangeAlike g h (a.run.run g).2 (a.run.run h).2

namespace Attempt.IsRepeatable

theorem pure (a : α) : IsRepeatable (Pure.pure a : Attempt α) := fun _ _ hgh => ⟨rfl, .refl hgh⟩

theorem throw (f : Fault) : IsRepeatable (MonadExcept.throw f : Attempt α) := fun _ _ hgh => ⟨rfl, .refl hgh⟩

theorem ofExcept (e : Except Fault α) : IsRepeatable (Attempt.ofExcept e) := by
  cases e with
  | ok a => exact pure a
  | error f => exact throw f

theorem exists_run {a : Attempt α} (ha : IsRepeatable a) {g h : Host} (hgh : g.Agrees h) :
    ∃ x g' h', a.run.run g = (x, g') ∧ a.run.run h = (x, h') ∧ Host.ChangeAlike g h g' h' := by
  obtain ⟨hresult, hchange⟩ := ha g h hgh
  exact ⟨(a.run.run g).1, (a.run.run g).2, (a.run.run h).2, rfl, Prod.ext hresult.symm rfl, hchange⟩

theorem bind {a : Attempt α} {f : α → Attempt β} (ha : IsRepeatable a) (hf : ∀ x, IsRepeatable (f x)) :
    IsRepeatable (a >>= f) := by
  intro g h hgh
  obtain ⟨x, g', h', hg, hh, hchange⟩ := ha.exists_run hgh
  cases x with
  | error e =>
    rw [run_bind_of_eq_error hg, run_bind_of_eq_error hh]
    exact ⟨rfl, hchange⟩
  | ok x =>
    rw [run_bind_of_eq_ok hg, run_bind_of_eq_ok hh]
    obtain ⟨hlast, hmore⟩ := hf x g' h' hchange.agrees
    exact ⟨hlast, hchange.trans hmore⟩

theorem get_bind {f : Host → Attempt α} (hf : ∀ h, IsRepeatable (f h)) (hsame : ∀ g h, g.Agrees h → f g = f h) :
    IsRepeatable (MonadState.get >>= f) := by
  intro g h hgh
  rw [run_bind_of_eq_ok (run_get g), run_bind_of_eq_ok (run_get h), hsame g h hgh]
  exact hf h g h hgh

theorem log (level : Level) (origin : Origin) (message : Text) :
    IsRepeatable (liftM (DisasmLens.log level origin message) : Attempt Unit) := by
  intro g h hgh
  refine ⟨rfl, (Host.ChangeAlike.refl hgh).of_unlogged ?_ ?_⟩
  · exact Action.Leaves.log Host.hidesLogs_unlogged g
  · exact Action.Leaves.log Host.hidesLogs_unlogged h

theorem result {a : Attempt α} (ha : IsRepeatable a) : IsRepeatable a.result := by
  intro g h hgh
  obtain ⟨hresult, hchange⟩ := ha g h hgh
  rw [run_result, run_result, hresult]
  exact ⟨rfl, hchange⟩

end Attempt.IsRepeatable

theorem isRepeatable_runTool (command : List Json) (directory : Option Text) :
    Attempt.IsRepeatable (runTool command directory) := by
  intro g h hgh
  have hagrees := hgh.answered
  rw [run_runTool, run_runTool, hgh.answer_eq]
  refine ⟨rfl, ⟨hagrees.files, hagrees.directory, hagrees.answers, hagrees.wallClock⟩, [⟨command, directory⟩], rfl, rfl, ?_⟩
  exact (List.drop_one).symm

/-! ### Building -/

theorem Toolchain.isRepeatable_run (t : Toolchain) (command : List Json) (source : AbsolutePath) :
    Attempt.IsRepeatable (t.run command source) := by
  unfold Toolchain.run
  refine .bind (isRepeatable_runTool _ _) fun build => ?_
  dsimp only
  split
  · exact .pure _
  · refine .get_bind (fun h => ?_) fun g h hgh => by rw [hgh.hasEntry_eq]
    split
    · exact .pure _
    · split
      · exact .pure _
      · refine .bind (isRepeatable_runTool _ _) fun dump => ?_
        split
        · exact .pure _
        · exact .pure _

theorem Toolchain.isRepeatable_compile (t : Toolchain) (source : Text) (flags : List Text) :
    Attempt.IsRepeatable (t.compile source flags) := by
  unfold compile
  split
  · exact .pure _
  · refine .get_bind (fun h => ?_) fun g h hgh => by rw [hgh.resolve_eq]
    refine .bind (.ofExcept _) fun command => .bind (.ofExcept _) fun shown => .bind (.log _ _ _) fun _ => ?_
    refine .bind (.result (t.isRepeatable_run _ _)) fun built => ?_
    cases built with
    | ok built => exact .pure _
    | error f =>
      dsimp only
      split
      · exact .bind (.log _ _ _) fun _ => .pure _
      · exact .throw _

namespace Session

/-! ### Sessions that share the present -/

structure SharesPresent (s t : Session) : Prop where
  source : s.build.source = t.build.source
  flags : s.flags = t.flags
  toolchain : s.toolchain = t.toolchain

def Outcome.isComplete : Outcome → Bool
  | .complete .. => true
  | _ => false

variable {s t : Session} {g h : Host}

theorem outcome_congr (hst : s.SharesPresent t) (hgh : g.Agrees h) : s.outcome g = t.outcome h := by
  unfold outcome
  rw [run_readFile, run_readFile, hst.source, hst.flags, hst.toolchain, hgh.text_eq]
  cases h.text t.build.source with
  | error f => rfl
  | ok code =>
    dsimp only
    obtain ⟨built, g', h', hg, hh, -⟩ := (t.toolchain.isRepeatable_compile t.build.source t.flags).exists_run hgh
    rw [hg, hh]
    cases built <;> rfl

theorem changeAlike_rebuild (hst : s.SharesPresent t) (hgh : g.Agrees h) :
    Host.ChangeAlike g h (s.rebuild.run g).2 (t.rebuild.run h).2 := by
  unfold rebuild
  rw [Action.run_bind, Action.run_bind, run_readFile, run_readFile, hst.source, hgh.text_eq]
  cases h.text t.build.source with
  | error f =>
    refine (Host.ChangeAlike.refl hgh).of_unlogged ?_ ?_
    · exact leaves_fail Host.hidesLogs_unlogged s f g
    · exact leaves_fail Host.hidesLogs_unlogged t f h
  | ok code =>
    dsimp only
    rw [Action.run_bind, Action.run_bind, Build.source_withCode, Build.source_withCode, hst.source, hst.flags,
      hst.toolchain]
    obtain ⟨built, g', h', hg, hh, hchange⟩ :=
      (t.toolchain.isRepeatable_compile t.build.source t.flags).exists_run hgh
    rw [hg, hh]
    -- the tools have run, and from here on both only log
    cases built with
    | error f =>
      refine hchange.of_unlogged ?_ ?_
      · exact leaves_fail Host.hidesLogs_unlogged _ f g'
      · exact leaves_fail Host.hidesLogs_unlogged _ f h'
    | ok built =>
      refine hchange.of_unlogged ?_ ?_
      · exact leaves_conclude Host.hidesLogs_unlogged _ _ _ g'
      · exact leaves_conclude Host.hidesLogs_unlogged _ _ _ h'

theorem changeAlike_announce (hgh : g.Agrees h) :
    Host.ChangeAlike g h (s.announce.run g).2 (t.announce.run h).2 := by
  refine (Host.ChangeAlike.refl hgh).of_unlogged ?_ ?_
  · exact s.leaves_announce Host.hidesLogs_unlogged g
  · exact t.leaves_announce Host.hidesLogs_unlogged h

theorem changeAlike_refresh (hst : s.SharesPresent t) (hgh : g.Agrees h) :
    Host.ChangeAlike g h (s.refresh.run g).2 (t.refresh.run h).2 := by
  have hannounced : Host.ChangeAlike g h (s.announce.run g).2 (t.announce.run h).2 := changeAlike_announce hgh
  exact hannounced.trans (changeAlike_rebuild hst hannounced.agrees)

theorem build_refresh_eq_update (s : Session) (h : Host) :
    (s.refresh.run h).1.build =
      (s.refreshOn h).outcome.update s.flags (s.refresh.run h).2.wallClock s.build := by
  show (publish (s.rebuild.run (s.announce.run h).2).1).build = _
  rw [build_publish, fst_rebuild]
  rfl

theorem Outcome.update_congr {o : Outcome} (ho : o.isComplete = true) {b c : Build} (hsource : b.source = c.source)
    (flags : List Text) (time : Int) : o.update flags time b = o.update flags time c := by
  cases o with
  | complete code whole report diagnostics =>
    -- all fields but the path of the source file are written anew
    obtain ⟨⟩ := b
    obtain ⟨⟩ := c
    cases hsource
    rfl
  | unread f => cases ho
  | uncompiled code f => cases ho
  | unparsed code report numeral => cases ho

/-- Sessions that share the present take the same course on hosts that agree: the same tools run and the same answers
are used up. If nothing breaks the refresh off, the builds are the same in all parts. -/
theorem build_refresh_congr (hst : s.SharesPresent t) (hgh : g.Agrees h) :
    (s.refreshOn g).outcome = (t.refreshOn h).outcome ∧
      (∃ runs,
        (s.refresh.run g).2.journal.runs = g.journal.runs ++ runs ∧
          (t.refresh.run h).2.journal.runs = h.journal.runs ++ runs ∧
          (s.refresh.run g).2.answers = g.answers.drop runs.length ∧
          (t.refresh.run h).2.answers = h.answers.drop runs.length) ∧
      (s.refresh.run g).2.Agrees (t.refresh.run h).2 ∧
      ((s.refreshOn g).outcome.isComplete = true → (s.refresh.run g).1.build = (t.refresh.run h).1.build) := by
  have houtcome : (s.refreshOn g).outcome = (t.refreshOn h).outcome :=
    outcome_congr hst (changeAlike_announce (s := s) (t := t) hgh).agrees
  obtain ⟨hagrees, runs, hg, hh, hleft⟩ := changeAlike_refresh hst hgh
  refine ⟨houtcome, ⟨runs, hg, hh, hleft, ?_⟩, hagrees, fun hcomplete => ?_⟩
  · rw [← hagrees.answers, hleft, hgh.answers]
  · rw [build_refresh_eq_update, build_refresh_eq_update, hagrees.wallClock, hst.flags, ← houtcome]
    exact Outcome.update_congr hcomplete hst.source _ _

/-- One session has reported an error before and the other one is new. Both come to the same listing. -/
theorem build_refresh_congr_listing :
    ∃ s t g h, SharesPresent s t ∧ s.build.hasErrors = true ∧ t.build = { source := t.build.source } ∧ g.Agrees h ∧
      (s.refreshOn g).outcome.isComplete = true ∧ (s.refresh.run g).1.build.listing ≠ [] ∧
      (s.refresh.run g).1.build = (t.refresh.run h).1.build := by
  have ht : loadsTo "/work/x.jai" listingHost (fun t made =>
      let s := (t.refresh.run errorHost).1
      s.build.hasErrors && (s.refreshOn made).outcome.isComplete &&
        (s.refresh.run made).1.build.listing ≠ []) = true := by
    decide +kernel
  obtain ⟨t, made, hl, htest⟩ := exists_of_loadsTo ht
  simp only [Bool.and_eq_true, decide_eq_true_eq] at htest
  obtain ⟨⟨herrors, hcomplete⟩, hlisting⟩ := htest
  obtain ⟨build, published, hs⟩ := t.exists_fst_refresh errorHost
  have hst : SharesPresent (t.refresh.run errorHost).1 t := ⟨t.source_refresh errorHost, by rw [hs], by rw [hs]⟩
  have hnew : t.build = { source := t.build.source } := by rw [build_load hl]
  have hgh : made.Agrees { made with home := "/root", journal := {} } := ⟨rfl, rfl, rfl, rfl⟩
  exact ⟨_, t, made, _, hst, herrors, hnew, hgh, hcomplete, hlisting, (build_refresh_congr hst hgh).2.2.2 hcomplete⟩

end Session

end DisasmLens
