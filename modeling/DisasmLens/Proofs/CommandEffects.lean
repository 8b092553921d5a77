import DisasmLens.Proofs.CompiledPath

/-!
# What a run does to its machine

Besides what it writes, a run of the program can run tools and open the screen (`CommandLine.Terminal.deeds`). Only two
kinds of request make it do so: one for the versions, where the compiler is asked for its own, and one for a source
file that is there (`CommandLine.deeds_of_run`).
-/

namespace DisasmLens

/-! ### Asking for the version -/

namespace Toolchain

def queries (t : Toolchain) : List Run :=
  (t.compiler.located?.map fun path => ⟨[.ofText path, .ofText "-version".toList], none⟩).toList

theorem runs_version (t : Toolchain) (h : Host) :
    (t.version.run.run h).2.journal.runs = h.journal.runs ++ t.queries := by
  unfold version queries
  cases t.compiler.located? with
  | none => exact (List.append_nil _).symm
  | some path =>
    have hasked := Attempt.run_result (runTool [.ofText path, .ofText "-version".toList] none) h
    rw [run_runTool] at hasked
    dsimp only
    rw [Attempt.run_bind_of_eq_ok hasked]
    -- What is done with the answer runs no tool.
    cases h.answer.result with
    | ok answer => rfl
    | error f =>
      dsimp only
      split
      · exact Attempt.Leaves.bind (.lift (.log Host.hidesLogs_runs)) (fun _ => .pure _) _
      · rfl

end Toolchain

namespace CommandLine

open Command

/-! ### Deeds -/

/-- The tools that were run, and the session that the screen was opened on. -/
def Terminal.deeds (t : Terminal) : List Run × Option Session := (t.host.journal.runs, t.screen)

namespace Command

variable {α β : Type}

/-- The piece runs no tool and does not open the screen, whatever comes of it. -/
def IsIdle (c : Command α) : Prop := ∀ t : Terminal, (c.run.run t).2.deeds = t.deeds

namespace IsIdle

theorem pure (a : α) : IsIdle (Pure.pure a : Command α) := fun _ => rfl

theorem write (o : Output) : IsIdle (Command.write o) := fun _ => rfl

theorem print (lines : List Text) : IsIdle (Command.print lines) := fun t => by rw [run_print]; rfl

theorem abort (lines : List Text) : IsIdle (Command.abort lines : Command α) := fun t => by rw [run_abort]; rfl

theorem require (e : Except Fault α) : IsIdle (Command.require e) := by
  cases e with
  | ok a => exact fun t => by rw [run_require_ok]
  | error f => exact fun t => by rw [run_require_error]

theorem logTo (place : LogPlace) (isVerbose : Bool) : IsIdle (Command.logTo place isVerbose) := by
  intro t
  cases place with
  | console => rfl
  | file =>
    have hlog := run_logTo_file isVerbose t
    split at hlog
    · rw [hlog]
    · obtain ⟨logging, files, threshold, hlog⟩ := hlog
      rw [hlog]
      rfl

theorem act {a : Action α} (ha : Action.Leaves (fun h => h.journal.runs) a) : IsIdle (Command.act a) :=
  fun t => congrArg (·, t.screen) (ha t.host)

theorem deeds_bind {f : α → Command β} (hf : ∀ a, IsIdle (f a)) (c : Command α) (t : Terminal) :
    ((c >>= f).run.run t).2.deeds = (c.run.run t).2.deeds := by
  cases hrun : c.run.run t with
  | mk result t' =>
    cases result with
    | ok a => rw [run_bind_of_eq_ok hrun, hf a t']
    | error e => rw [run_bind_of_eq_error hrun]

theorem bind {c : Command α} {f : α → Command β} (hc : IsIdle c) (hf : ∀ a, IsIdle (f a)) : IsIdle (c >>= f) :=
  fun t => (deeds_bind hf c t).trans (hc t)

end IsIdle

end Command

/-! ### Pieces of the run -/

theorem isIdle_showListing (path target : Text) : IsIdle (showListing path target) := by
  have hread : IsIdle (readListing path) := fun t => by rw [run_readListing]
  refine .bind hread fun whole => ?_
  cases whole with
  | ok whole => exact .bind (.act (Listing.leaves_processLogged Host.hidesLogs_runs _ _)) fun _ => .write _
  | error f =>
    dsimp only
    split
    · exact .abort _
    · exact fun _ => rfl

/-- The runs that a request for the versions makes on a host. -/
def versionRuns (h : Host) : List Run :=
  match (Toolchain.load.run.run h).1 with
  | .ok tools => tools.queries
  | .error _ => []

theorem deeds_showVersions (t : Terminal) :
    (showVersions.run.run t).2.deeds = (t.host.journal.runs ++ versionRuns t.host, t.screen) := by
  have hloaded : (Toolchain.load.run.run t.host).2.journal.runs = t.host.journal.runs :=
    Toolchain.leaves_load Host.hidesFiles_runs Host.hidesLogs_runs t.host
  unfold showVersions versionRuns
  rw [run_bind_of_eq_ok (run_print _ t), run_bind_of_eq_ok (run_attempt _ _)]
  dsimp only
  cases (Toolchain.load.run.run t.host).1 with
  | error f =>
    rw [run_bind_of_eq_error (run_require_error f _), List.append_nil]
    exact congrArg (·, t.screen) hloaded
  | ok tools =>
    have hasked := tools.runs_version (Toolchain.load.run.run t.host).2
    rw [hloaded] at hasked
    rw [run_bind_of_eq_ok (run_require_ok tools _)]
    refine (IsIdle.deeds_bind (fun line => .print [line]) (versionReport tools) _).trans ?_
    unfold versionReport
    rw [run_bind_of_eq_ok (run_attempt _ _)]
    -- What is made of the answer is written, or its fault goes on.
    refine (IsIdle.bind (.require _) (fun line => ?_) _).trans (congrArg (·, t.screen) hasked)
    cases line with
    | some line => exact .pure line
    | none => exact .require _

theorem deeds_run {arguments : List Text} {r : Request} (hr : Request.ofArguments arguments = .ok r) (t : Terminal) :
    (run arguments t).2.deeds = ((serve r).run.run t.started).2.deeds :=
  congrArg Terminal.deeds (snd_run_of_request hr t)

/-! ### The whole run -/

theorem deeds_serve_of_showsVersion {r : Request} (hr : r.showsVersion = true) (t : Terminal) :
    ((serve r).run.run t).2.deeds = (t.host.journal.runs ++ versionRuns t.host, t.screen) := by
  have hexit : IsIdle (exit 0 : Command Unit) := fun _ => rfl
  rw [run_serve_versions hr]
  exact (IsIdle.deeds_bind (fun _ => hexit) showVersions t).trans (deeds_showVersions t)

theorem isIdle_serve_of_dump {r : Request} {path : Text} (hr : r.showsVersion = false)
    (hd : Request.given? r.dump = some path) : IsIdle (serve r) := by
  intro t
  cases hw : r.words with
  | error f => rw [run_serve_of_words_eq_error hr hw]
  | ok flags =>
    cases hf : Request.given? r.file with
    | some target =>
      rw [run_serve_dump hr hw hd hf]
      exact IsIdle.bind (.logTo _ _) (fun _ => isIdle_showListing path target) t
    | none =>
      rw [run_serve_dump_of_file_eq_none hr hw hd hf]
      exact IsIdle.bind (.logTo _ _) (fun _ => .abort _) t

theorem deeds_serve_of_not {r : Request} {t : Terminal} (hr : r.showsVersion = false)
    (hd : Request.given? r.dump = none)
    (hs : ¬∃ f ∈ Request.given? r.file, t.HasSource f) : ((serve r).run.run t).2.deeds = t.deeds := by
  obtain ⟨lines, -, hrun⟩ := run_sourcePath_of_not hs
  rw [run_abort] at hrun
  cases hw : r.words with
  | error f => rw [run_serve_of_words_eq_error hr hw]
  | ok flags =>
    rw [run_serve_source hr hw hd, run_bind_of_eq_error hrun]
    rfl

theorem fst_serve_ne (r : Request) (t : Terminal) : ((serve r).run.run t).1 ≠ .error (.exit 2) := by
  intro hrun
  cases he : escape? r t with
  | some f =>
    rw [fst_serve_of_escape he] at hrun
    cases hrun
  | none =>
    by_cases hv : r.showsVersion = true
    · obtain ⟨t', hserved, -⟩ := run_serve_of_showsVersion hv he
      rw [hserved] at hrun
      cases hrun
    · have hgives := gives_serve (Bool.eq_false_iff.mpr hv) he
      unfold Gives at hgives
      split at hgives
      · rename_i hok
        rw [hok] at hrun
        cases hrun
      · rename_i herror
        rw [herror] at hrun
        cases hrun
        cases hgives.code

theorem fst_run_ne {arguments : List Text} {r : Request} (hr : Request.ofArguments arguments = .ok r) (t : Terminal) :
    (run arguments t).1 ≠ .exit 2 := by
  have hserved := fst_serve_ne r t.started
  rw [run_eq_of_request hr]
  split
  · intro h
    cases h
  · rename_i ending t' hrun
    rw [hrun] at hserved
    exact fun h => hserved (congrArg Except.error h)

/-- Arguments that are not understood change nothing but what is written. A request for the versions asks the compiler
and does nothing else; a request to filter a listing does neither. Any other one needs a source file that is there. -/
theorem deeds_of_run (arguments : List Text) (t : Terminal) :
    ((run arguments t).1 = .exit 2 ↔ ∃ e, Request.ofArguments arguments = .error (.usage e)) ∧
      match Request.ofArguments arguments with
      | .error .help => (run arguments t).2.deeds = t.deeds
      | .error (.usage e) => run arguments t = (.exit 2, { t.started with output := t.output ++ [.err e.report] })
      | .ok r =>
        if r.showsVersion then
          (run arguments t).2.deeds = (t.host.journal.runs ++ versionRuns t.started.host, t.screen)
        else if (Request.given? r.dump).isSome then (run arguments t).2.deeds = t.deeds
        else
          (run arguments t).2.deeds = t.deeds ∨
            ∃ file, Request.given? r.file = some file ∧ t.host.hasEntry (t.source file) = true ∧
              Path.isSource (t.source file) = true := by
  cases hr : Request.ofArguments arguments with
  | error stop =>
    cases stop with
    | help =>
      have hrun : run arguments t = (.exit 0, { t.started with output := t.output ++ [.out help] }) := by
        rw [run_eq, command, hr]
        rfl
      have hne : Ending.exit 0 ≠ .exit 2 := by decide
      rw [hrun]
      refine ⟨iff_of_false hne ?_, rfl⟩
      rintro ⟨e, he⟩
      cases he
    | usage e =>
      have hrun := run_of_usage hr t
      exact ⟨iff_of_true (congrArg Prod.fst hrun) ⟨e, rfl⟩, hrun⟩
  | ok r =>
    refine ⟨iff_of_false (fst_run_ne hr t) ?_, ?_⟩
    · rintro ⟨e, he⟩
      cases he
    · dsimp only
      rw [deeds_run hr]
      by_cases hv : r.showsVersion = true
      · rw [if_pos hv]
        exact deeds_serve_of_showsVersion hv t.started
      rw [if_neg hv]
      cases hd : Request.given? r.dump with
      | some path => exact isIdle_serve_of_dump (Bool.eq_false_iff.mpr hv) hd t.started
      | none =>
        rw [Option.isSome_none, if_neg Bool.false_ne_true]
        by_cases hs : ∃ f ∈ Request.given? r.file, t.HasSource f
        · exact .inr hs
        · exact .inl (deeds_serve_of_not (t := t.started) (Bool.eq_false_iff.mpr hv) hd hs)

end CommandLine

end DisasmLens
