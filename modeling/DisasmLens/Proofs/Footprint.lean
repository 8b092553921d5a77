import DisasmLens.Proofs.ToolRuns
import DisasmLens.Session

/-!
# What building leaves of the host

The files, what tools will answer and the journal are all that a refresh can change of its host
(`Session.keeps_refresh`). The rest is told by `Host.setting`.
-/

namespace DisasmLens

/-- The action leaves what a view shows of the host. -/
def Action.Leaves {α β : Type} (view : Host → β) (a : Action α) : Prop := ∀ h : Host, view (a.run h).2 = view h

def Host.HidesLogs {β : Type} (view : Host → β) : Prop :=
  ∀ (h : Host) (logs : List LogRecord), view { h with journal.logs := logs } = view h

def Host.HidesFiles {β : Type} (view : Host → β) : Prop := ∀ (h : Host) (files : Files), view { h with files } = view h

variable {α β γ : Type} {view : Host → γ}

/-! ### Actions -/

namespace Action.Leaves

theorem pure (a : α) : Leaves view (Pure.pure a : Action α) := fun _ => rfl

theorem get : Leaves view (MonadState.get : Action Host) := fun _ => rfl

theorem bind {a : Action α} {f : α → Action β} (ha : Leaves view a) (hf : ∀ x, Leaves view (f x)) :
    Leaves view (a >>= f) :=
  fun h => (hf (a.run h).1 (a.run h).2).trans (ha h)

theorem log (hv : Host.HidesLogs view) {level : Level} {origin : Origin} {message : Text} :
    Leaves view (DisasmLens.log level origin message) := by
  intro h
  obtain ⟨logs, hlogs⟩ := snd_log level origin message h
  rw [hlogs]
  exact hv h logs

end Action.Leaves

/-! ### Attempts -/

namespace Attempt

def Leaves (view : Host → γ) (a : Attempt α) : Prop := Action.Leaves view a.run

namespace Leaves

theorem pure (a : α) : Leaves view (Pure.pure a : Attempt α) := fun _ => rfl

theorem throw (f : Fault) : Leaves view (MonadExcept.throw f : Attempt α) := fun _ => rfl

theorem get : Leaves view (MonadState.get : Attempt Host) := fun _ => rfl

theorem ofExcept (e : Except Fault α) : Leaves view (Attempt.ofExcept e) := by
  cases e with
  | ok a => exact pure a
  | error f => exact throw f

theorem bind {a : Attempt α} {f : α → Attempt β} (ha : Leaves view a) (hf : ∀ x, Leaves view (f x)) :
    Leaves view (a >>= f) := by
  unfold Leaves
  rw [ExceptT.run_bind]
  refine Action.Leaves.bind ha fun answer => ?_
  cases answer with
  | ok x => exact hf x
  | error f => exact Action.Leaves.pure _

theorem view_eq {a : Attempt α} (ha : Leaves view a) {h h' : Host} {r : Except Fault α} (hr : a.run.run h = (r, h')) :
    view h' = view h := by
  have hkept := ha h
  rw [hr] at hkept
  exact hkept

theorem lift {a : Action α} (ha : Action.Leaves view a) : Leaves view (liftM a : Attempt α) := fun h => ha h

theorem result {a : Attempt α} (ha : Leaves view a) : Leaves view a.result := by
  intro h
  rw [run_result]
  exact ha h

end Leaves

end Attempt

/-! ### What the program cannot change -/

/-- A host without what the program can change of it. -/
def Host.setting (h : Host) : Host := { h with files := [], answers := [], journal := {} }

theorem Host.hidesLogs_setting : HidesLogs setting := fun _ _ => rfl

theorem Host.hidesFiles_setting : HidesFiles setting := fun _ _ => rfl

/-- The action changes nothing of the host but the files, the answers of tools and the journal. -/
def Action.Keeps (a : Action α) : Prop := Leaves Host.setting a

def Attempt.Keeps (a : Attempt α) : Prop := Leaves Host.setting a

theorem leaves_readFile (path : Text) : Attempt.Leaves view (readFile path) :=
  .bind .get fun h => .ofExcept (h.text path)

theorem keeps_runTool (command : List Json) (directory : Option Text) : Attempt.Keeps (runTool command directory) := by
  intro h
  show ((runTool command directory).run.run h).2.setting = h.setting
  rw [run_runTool]
  rfl

/-! ### Looking tools up -/

namespace Toolchain

theorem leaves_locate (hv : Host.HidesLogs view) (role : Text) (name : Json) :
    Attempt.Leaves view (locate role name) := by
  refine .bind .get fun h => .bind (.ofExcept _) fun tool => ?_
  split
  · exact .bind (.lift (.log hv)) fun _ => .pure _
  · exact .pure _

theorem leaves_ofSettings (hv : Host.HidesLogs view) (s : Settings) : Attempt.Leaves view (ofSettings s) :=
  .bind (leaves_locate hv _ _) fun _ => .bind (leaves_locate hv _ _) fun _ => .pure _

theorem run_locate (role : Text) (name : Json) (h : Host) :
    ∃ logs, (locate role name).run.run h = (Tool.find h name, { h with journal.logs := logs }) := by
  unfold locate
  rw [Attempt.run_bind_of_eq_ok (Attempt.run_get h), Attempt.run_ofExcept_bind]
  cases Tool.find h name with
  | error f => exact ⟨h.journal.logs, rfl⟩
  | ok tool =>
    dsimp only
    split
    · obtain ⟨logs, hlogs⟩ := snd_log .warning .toolchain (role ++ " '" ++ name.display ++ "' not found.") h
      exact ⟨logs, congrArg (Except.ok tool, ·) hlogs⟩
    · exact ⟨h.journal.logs, rfl⟩

/-- The tools that the preferences name, unless one of the names cannot be looked up. -/
def found (h : Host) (s : Settings) : Except Fault Toolchain := do
  let compiler ← Tool.find h (s.getD Settings.compilerName Settings.defaultCompiler)
  let disassembler ← Tool.find h (s.getD Settings.disassemblerName Settings.defaultDisassembler)
  return ⟨s, compiler, disassembler⟩

theorem run_ofSettings (s : Settings) (h : Host) :
    ∃ logs, (ofSettings s).run.run h = (found h s, { h with journal.logs := logs }) := by
  obtain ⟨logs, hcompiler⟩ := run_locate "Compiler" (s.getD Settings.compilerName Settings.defaultCompiler) h
  unfold ofSettings found
  cases hc : Tool.find h (s.getD Settings.compilerName Settings.defaultCompiler) with
  | error f =>
    rw [hc] at hcompiler
    exact ⟨logs, Attempt.run_bind_of_eq_error hcompiler _⟩
  | ok compiler =>
    rw [hc] at hcompiler
    obtain ⟨more, hdisassembler⟩ := run_locate "Disassembler"
      (s.getD Settings.disassemblerName Settings.defaultDisassembler) { h with journal.logs := logs }
    refine ⟨more, (Attempt.run_bind_of_eq_ok hcompiler _).trans ?_⟩
    have hsame : Tool.find { h with journal.logs := logs }
        (s.getD Settings.disassemblerName Settings.defaultDisassembler) =
      Tool.find h (s.getD Settings.disassemblerName Settings.defaultDisassembler) := rfl
    rw [hsame] at hdisassembler
    cases hd : Tool.find h (s.getD Settings.disassemblerName Settings.defaultDisassembler) with
    | error f =>
      rw [hd] at hdisassembler
      exact Attempt.run_bind_of_eq_error hdisassembler _
    | ok disassembler =>
      rw [hd] at hdisassembler
      exact Attempt.run_bind_of_eq_ok hdisassembler _

end Toolchain

/-! ### Building -/

theorem Toolchain.keeps_run (t : Toolchain) (command : List Json) (source : AbsolutePath) :
    Attempt.Keeps (t.run command source) := by
  unfold Toolchain.run
  refine .bind (keeps_runTool _ _) fun build => ?_
  dsimp only
  split
  · exact .pure _
  · refine .bind .get fun h => ?_
    split
    · exact .pure _
    · split
      · exact .pure _
      · refine .bind (keeps_runTool _ _) fun dump => ?_
        split
        · exact .pure _
        · exact .pure _

theorem Toolchain.keeps_compile (t : Toolchain) (source : Text) (flags : List Text) :
    Attempt.Keeps (t.compile source flags) := by
  unfold compile
  split
  · exact .pure _
  · refine .bind .get fun h => .bind (.ofExcept _) fun command => .bind (.ofExcept _) fun shown => ?_
    refine .bind (.lift (.log Host.hidesLogs_setting)) fun _ => .bind (.result (t.keeps_run _ _)) fun built => ?_
    cases built with
    | ok built => exact .pure _
    | error f =>
      dsimp only
      split
      · exact .bind (.lift (.log Host.hidesLogs_setting)) fun _ => .pure _
      · exact .throw _

theorem Listing.leaves_processLogged (hv : Host.HidesLogs view) (target whole : Text) :
    Action.Leaves view (processLogged target whole) := by
  unfold processLogged
  split
  · exact .bind (.log hv) fun _ => .pure _
  · exact .pure _

namespace Session

theorem leaves_announce (hv : Host.HidesLogs view) (s : Session) : Action.Leaves view s.announce := .log hv

theorem leaves_fail (hv : Host.HidesLogs view) (s : Session) (f : Fault) : Action.Leaves view (s.fail f) :=
  .bind (.log hv) fun _ => .bind .get fun _ => .pure _

/-- What a session makes of a listing and a report is not seen on the host but for the messages logged. -/
theorem leaves_conclude (hv : Host.HidesLogs view) (s : Session) (whole report : Text) :
    Action.Leaves view (s.conclude whole report) := by
  unfold conclude
  dsimp only
  split
  · exact leaves_fail hv _ _
  · split
    · exact .bind (.log hv) fun _ => .bind .get fun _ => .pure _
    · refine .bind (Listing.leaves_processLogged hv _ _) fun _ => .bind .get fun _ => ?_
      exact .bind (.log hv) fun _ => .pure _

theorem keeps_rebuild (s : Session) : Action.Keeps s.rebuild := by
  unfold rebuild
  refine .bind (leaves_readFile _) fun read => ?_
  cases read with
  | error f => exact s.leaves_fail Host.hidesLogs_setting f
  | ok code =>
    refine .bind (Toolchain.keeps_compile _ _ _) fun built => ?_
    cases built with
    | error f => exact leaves_fail Host.hidesLogs_setting _ f
    | ok built => exact leaves_conclude Host.hidesLogs_setting _ _ _

theorem keeps_refresh (s : Session) : Action.Keeps s.refresh :=
  .bind (s.leaves_announce Host.hidesLogs_setting) fun _ => .bind s.keeps_rebuild fun _ => .pure _

theorem directory_refresh (s : Session) (h : Host) : (s.refresh.run h).2.directory = h.directory := by
  have hsetting := congrArg Host.directory (s.keeps_refresh h)
  exact hsetting

end Session

end DisasmLens
