import DisasmLens.Proofs.Locations
import DisasmLens.Proofs.PrintedListing
import DisasmLens.Proofs.SettingsFile
import DisasmLens.Proofs.ToolRuns

/-!
# The path that is compiled

A listing that is printed is filtered for the absolute form of the file's path, and the compiler is given that path
resolved. The two are the same unless the absolute form starts with two slashes
(`CommandLine.lastPath?_first_of_prints`).
-/

namespace DisasmLens

def Run.lastPath? (r : Run) : Option Text :=
  match r.command.getLast? with
  | some (.string s) => (Text.ofRunes s).toOption
  | _ => none

theorem Host.hidesLogs_runs : HidesLogs fun h => h.journal.runs := fun _ _ => rfl

theorem Host.hidesFiles_runs : HidesFiles fun h => h.journal.runs := fun _ _ => rfl

theorem Host.hidesLogs_directory : HidesLogs directory := fun _ _ => rfl

theorem Host.hidesLogs_text (path : Text) : HidesLogs fun h => h.text path := fun _ _ => rfl

variable {γ : Type} {view : Host → γ}

/-! ### Opening a session -/

theorem Toolchain.leaves_load (hf : Host.HidesFiles view) (hl : Host.HidesLogs view) : Attempt.Leaves view load :=
  .bind (Settings.leaves_load hf hl) fun s => leaves_ofSettings hl s

/-- Opening a session touches files and logs messages, and nothing else. -/
theorem Session.leaves_load (hf : Host.HidesFiles view) (hl : Host.HidesLogs view) (source : Text) :
    Attempt.Leaves view (load source) :=
  .bind (Toolchain.leaves_load hf hl) fun _ => .pure _

theorem Session.runs_of_load {source : Text} {r : Except Fault Session} {h made : Host}
    (hl : (load source).run.run h = (r, made)) : made.journal.runs = h.journal.runs :=
  (leaves_load Host.hidesFiles_runs Host.hidesLogs_runs source).view_eq hl

/-! ### Runs of a rebuild -/

theorem Toolchain.lastPath?_of_buildCommand {t : Toolchain} {source : Text} {flags : List Text} {run : Run}
    (hb : t.buildCommand source flags = .ok run.command) : run.lastPath? = some source := by
  unfold buildCommand at hb
  cases hs : t.settledFlags with
  | error f =>
    rw [hs] at hb
    cases hb
  | ok settled =>
    rw [hs] at hb
    have hcommand : t.compiler.head :: settled ++ flags.map .ofText ++ [.ofText source] = run.command :=
      Except.ok.inj hb
    rw [Run.lastPath?, ← hcommand, List.getLast?_concat]
    exact congrArg Except.toOption (Text.ofRunes_runes source)

theorem Toolchain.Legal.lastPath? {t : Toolchain} {path : AbsolutePath} {flags : List Text} {h : Host} {runs : List Run}
    (hl : t.Legal path flags h runs) : ∀ run ∈ runs.head?, run.lastPath? = some path.text := by
  intro run hr
  rw [List.head?_eq_getElem?] at hr
  exact lastPath?_of_buildCommand (hl.first run hr).1

namespace Session

/-- A rebuild runs the tools in the legal order, and none if it cannot read the source file. -/
theorem legal_rebuild (s : Session) (h : Host) :
    ∃ runs, (s.rebuild.run h).2.journal.runs = h.journal.runs ++ runs ∧
      match h.text s.build.source with
      | .ok _ => s.toolchain.Legal (h.resolve s.build.source) s.flags h runs
      | .error _ => runs = [] := by
  unfold rebuild
  rw [Action.run_bind, run_readFile]
  cases h.text s.build.source with
  | error f => exact ⟨[], (leaves_fail Host.hidesLogs_runs s f h).trans (List.append_nil _).symm, rfl⟩
  | ok code =>
    dsimp only
    rw [Action.run_bind]
    obtain ⟨runs, hcourse, hruns⟩ := s.toolchain.course_compile s.build.source s.flags h
    refine ⟨runs, ?_, hcourse.legal⟩
    rw [← hruns, Build.source_withCode]
    cases (s.toolchain.compile s.build.source s.flags).run.run h with
    | mk compiled made =>
      cases compiled with
      | error f => exact leaves_fail Host.hidesLogs_runs _ f made
      | ok built => exact leaves_conclude Host.hidesLogs_runs _ _ _ made

theorem legal_refresh (s : Session) (h : Host) :
    ∃ runs, (s.refresh.run h).2.journal.runs = h.journal.runs ++ runs ∧
      match h.text s.build.source with
      | .ok _ => s.toolchain.Legal (h.resolve s.build.source) s.flags (s.announce.run h).2 runs
      | .error _ => runs = [] := by
  have hruns : (s.announce.run h).2.journal.runs = h.journal.runs :=
    s.leaves_announce Host.hidesLogs_runs h
  have hdirectory : (s.announce.run h).2.directory = h.directory :=
    s.leaves_announce Host.hidesLogs_directory h
  have htext : (s.announce.run h).2.text s.build.source = h.text s.build.source :=
    s.leaves_announce (Host.hidesLogs_text s.build.source) h
  obtain ⟨runs, hrebuilt, hlegal⟩ := s.legal_rebuild (s.announce.run h).2
  rw [hruns] at hrebuilt
  rw [htext, Host.resolve, hdirectory] at hlegal
  exact ⟨runs, hrebuilt, hlegal⟩

theorem lastPath?_refresh (s : Session) (h : Host) :
    ∃ runs, (s.refresh.run h).2.journal.runs = h.journal.runs ++ runs ∧
      ∀ run ∈ runs.head?, run.lastPath? = some (h.resolve s.build.source).text := by
  obtain ⟨runs, hruns, hlegal⟩ := s.legal_refresh h
  refine ⟨runs, hruns, ?_⟩
  split at hlegal
  · exact hlegal.lastPath?
  · rw [hlegal]
    exact nofun

/-- After a refresh the listing is the part of the whole one that the path of the source file contributed. -/
theorem listing_refresh (s : Session) (h : Host)
    (hc : s.build.codeLines = Text.boundaryLines s.build.code) :
    (s.refresh.run h).1.build.listing = Listing.retain s.build.source (s.refresh.run h).1.build.whole := by
  obtain ⟨time, hbuild⟩ := s.build_refresh h
  obtain ⟨target, htarget, hlisting⟩ := (coherent_update (r := s.refreshOn h) time hc).listing_eq
  have hsource : s.build.source = target := htarget _ rfl
  rw [hsource, hbuild]
  exact hlisting

end Session

/-! ### The whole run -/

namespace CommandLine

open Command

variable {arguments flags : List Text} {t : Terminal} {r : Request} {file : Text}

theorem run_printOnce_of_load {source : Text} {f : Fault} {made : Host}
    (hl : (Session.load source).run.run t.host = (.error f, made)) (flags : List Text) :
    ∃ after, (printOnce source flags).run.run t = (.error (.exit 1), after) ∧ after.host = made := by
  have hopen : ∃ after, (openSession source flags).run.run t = (.error (.exit 1), after) ∧ after.host = made := by
    unfold openSession
    rw [run_bind_of_eq_ok (run_attempt _ t), hl]
    exact ⟨_, run_abort _ _, rfl⟩
  obtain ⟨after, hrun, hhost⟩ := hopen
  exact ⟨after, run_bind_of_eq_error hrun _, hhost⟩

/-- A request to print fails before it runs a tool, or its session is opened. -/
theorem prints_cases (hr : Request.ofArguments arguments = .ok r) (hp : r.Prints file flags) (t : Terminal) :
    ((run arguments t).1 = .exit 1 ∧ (run arguments t).2.host.journal.runs = t.host.journal.runs) ∨
      t.host.hasEntry (t.source file) = true ∧ Path.isSource (t.source file) = true ∧
        ∃ s made, (Session.load (t.source file)).run.run (t.logged r.isVerbose).host = (.ok s, made) := by
  rw [run_eq_of_request hr, hp.run_serve]
  by_cases hfound : t.HasSource file
  · have hsource : (sourcePath (some file)).run.run t.started = (.ok (t.source file), t.started) :=
      run_sourcePath (t := t.started) hfound
    have hlog : (logTo .console r.isVerbose).run.run t.started = (.ok (), t.logged r.isVerbose) := rfl
    rw [run_bind_of_eq_ok hsource, run_bind_of_eq_ok hlog]
    cases hl : (Session.load (t.source file)).run.run (t.logged r.isVerbose).host with
    | mk loaded made =>
      cases loaded with
      | ok s => exact .inr ⟨hfound.1, hfound.2, s, made, rfl⟩
      | error f =>
        obtain ⟨after, hrun, hhost⟩ := run_printOnce_of_load hl flags
        have hmade := Session.runs_of_load hl
        rw [← hhost] at hmade
        rw [hrun]
        exact .inl ⟨rfl, hmade⟩
  · have hnone : ¬∃ f ∈ some file, t.started.HasSource f := by
      rintro ⟨_, ⟨⟩, hf⟩
      exact hfound hf
    obtain ⟨lines, -, hrun⟩ := run_sourcePath_of_not hnone
    rw [run_abort] at hrun
    rw [run_bind_of_eq_error hrun]
    exact .inl ⟨rfl, rfl⟩

theorem exists_load_of_runs (hr : Request.ofArguments arguments = .ok r) (hp : r.Prints file flags)
    (hc : (run arguments t).2.host.journal.runs ≠ t.host.journal.runs) :
    t.host.hasEntry (t.source file) = true ∧ Path.isSource (t.source file) = true ∧
      ∃ s made, (Session.load (t.source file)).run.run (t.logged r.isVerbose).host = (.ok s, made) :=
  (prints_cases hr hp t).resolve_left fun h => hc h.2

/-- A run that prints and comes to the compiler gives it the text of the file's location. That is the path that the
listing is filtered for, unless the absolute form of the file's path starts with two slashes. -/
theorem lastPath?_first_of_prints {first : Run} {more : List Run} (hr : Request.ofArguments arguments = .ok r)
    (hp : r.Prints file flags)
    (hc : (run arguments t).2.host.journal.runs = t.host.journal.runs ++ first :: more) :
    let compiled := (Path.absolute t.host.directory file).location.text
    ∃ s made, (Session.load (t.source file)).run.run (t.logged r.isVerbose).host = (.ok s, made) ∧
      let build := ((Session.refresh { s with flags, isSubscribed := false }).run made).1.build
      (run arguments t).2.output = t.output ++ [printed build] ∧
        build.listing = Listing.retain (t.source file) build.whole ∧
        first.lastPath? = some compiled ∧
        (compiled = t.source file ↔ Path.hasTwoSlashes (Path.within t.host.directory file) = false) := by
  intro compiled
  have hran : (run arguments t).2.host.journal.runs ≠ t.host.journal.runs := by
    rw [hc]
    exact fun h => List.cons_ne_nil _ _ (List.append_right_eq_self.mp h)
  obtain ⟨he, hs, s, made, hl⟩ := exists_load_of_runs hr hp hran
  -- The session knows the file by its absolute form, and so does the compiler's turn in the refresh.
  have hbuild : s.build = { source := t.source file } := Session.build_load hl
  have hsource : s.build.source = t.source file := by rw [hbuild]
  have hmade := Session.runs_of_load hl
  have hlogged : (t.logged r.isVerbose).host.journal.runs = t.host.journal.runs := rfl
  have hlisting := Session.listing_refresh { s with flags, isSubscribed := false } made (by rw [hbuild]; rfl)
  obtain ⟨runs, hruns, hfirst⟩ := Session.lastPath?_refresh { s with flags, isSubscribed := false } made
  have hrun := run_eq_printed hr hp he hs hl
  dsimp only at hrun hruns hfirst hlisting
  rw [hsource] at hfirst hlisting
  rw [hrun] at hc
  rw [hmade, hlogged] at hruns
  -- No tool has run before the refresh, so the first run is the refresh's own.
  have hcons : runs = first :: more := List.append_cancel_left (hruns.symm.trans hc)
  have hlast := hfirst first (by rw [hcons]; rfl)
  rw [Host.resolve, Terminal.source, Path.text_resolve_absolute] at hlast
  refine ⟨s, made, hl, ?_, hlisting, hlast, Path.location_text_eq_iff t.host.directory file⟩
  rw [hrun]

/-- The run prints a listing, and the first tool it runs is given a path. -/
def printsFrom (arguments : List Text) (t : Terminal) (compiled listing : Text) : Bool :=
  (run arguments t).2.host.journal.runs.head?.any (fun first => first.lastPath? = some compiled) &&
    (run arguments t).2.output = [.listing (Markup.listing listing)]

theorem exists_of_printsFrom {arguments : List Text} {t : Terminal} {compiled listing : Text}
    (h : printsFrom arguments t compiled listing = true) :
    ∃ first more, (run arguments t).2.host.journal.runs = first :: more ∧ first.lastPath? = some compiled ∧
      (run arguments t).2.output = [.listing (Markup.listing listing)] := by
  unfold printsFrom at h
  obtain ⟨hfirst, hout⟩ := Bool.and_eq_true_iff.mp h
  cases hruns : (run arguments t).2.host.journal.runs with
  | nil =>
    rw [hruns] at hfirst
    cases hfirst
  | cons first more =>
    rw [hruns] at hfirst
    exact ⟨first, more, rfl, of_decide_eq_true hfirst, of_decide_eq_true hout⟩

/-- Three slashes are one, so the instructions of the file are kept. -/
theorem lastPath?_first_of_prints_three_slashes :
    ∃ r first more, Request.ofArguments ["--print", "///work/./x.jai"] = .ok r ∧ r.Prints "///work/./x.jai" [] ∧
      (run ["--print", "///work/./x.jai"] { host := Session.listingHost }).2.host.journal.runs = first :: more ∧
      first.lastPath? = some (Terminal.source { host := Session.listingHost } "///work/./x.jai") := by
  have hprints : printsFrom ["--print", "///work/./x.jai"] { host := Session.listingHost } "/work/x.jai"
      "main():\n/work/x.jai:1\n  1: push\n  2: ret\n" = true := by
    decide +kernel
  obtain ⟨first, more, hruns, -, -⟩ := exists_of_printsFrom hprints
  have hr : Request.ofArguments ["--print", "///work/./x.jai"] =
      .ok { file := some "///work/./x.jai", printsOnce := true } := rfl
  have hp : Request.Prints { file := some "///work/./x.jai", printsOnce := true } "///work/./x.jai" [] :=
    ⟨rfl, rfl, rfl, rfl, rfl⟩
  obtain ⟨_, _, -, -, -, hlast, hiff⟩ :=
    lastPath?_first_of_prints (t := { host := Session.listingHost }) hr hp hruns
  have hone : Path.hasTwoSlashes (Path.within Session.listingHost.directory "///work/./x.jai") = false := by
    decide +kernel
  rw [hiff.mpr hone] at hlast
  exact ⟨_, first, more, hr, hp, hruns, hlast⟩

/-- With two slashes the listing is filtered for another path than the one that is compiled, and loses all that the
file contributed. -/
theorem exists_lastPath?_first_ne :
    ∃ (arguments : List Text) (t : Terminal) (r : Request) (file : Text) (first : Run) (more : List Run)
      (compiled : Text), Request.ofArguments arguments = .ok r ∧ r.Prints file [] ∧
      (run arguments t).2.host.journal.runs = t.host.journal.runs ++ first :: more ∧
      first.lastPath? = some compiled ∧ compiled ≠ t.source file ∧
      (run arguments t).2.output = [.listing (Markup.listing "main():\n")] := by
  have hprints : printsFrom ["--print", "//work/x.jai"] { host := Session.listingHost } "/work/x.jai" "main():\n" =
      true := by
    decide +kernel
  obtain ⟨first, more, hruns, hlast, hout⟩ := exists_of_printsFrom hprints
  exact ⟨_, _, { file := some "//work/x.jai", printsOnce := true }, "//work/x.jai", first, more, _, rfl,
    ⟨rfl, rfl, rfl, rfl, rfl⟩, hruns, hlast, by decide +kernel, hout⟩

end CommandLine

end DisasmLens
