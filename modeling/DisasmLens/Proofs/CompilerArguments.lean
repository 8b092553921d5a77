import DisasmLens.Proofs.CompiledPath
import DisasmLens.Proofs.WordsRoundTrip
import Mathlib.Data.List.Permutation

/-!
# Arguments for the compiler on the command line

Words that are written as one line and attached to `--flags=` come to the compiler as they are, or to the session that
the screen is opened on, in whatever order the arguments stand (`CommandLine.run_of_buildArguments`). A lone divider
does not: it is taken away as a value, and nothing is built.
-/

namespace DisasmLens

theorem ShellWords.join_eq_dividerText_iff {words : List Text} :
    join words = CommandLine.dividerText ↔ words = [CommandLine.dividerText] := by
  have hdivider : split CommandLine.dividerText = .ok [CommandLine.dividerText] := rfl
  constructor
  · intro h
    have hwords := split_join words
    rw [h, hdivider] at hwords
    exact (Except.ok.inj hwords).symm
  · intro h
    rw [h]
    rfl

namespace Toolchain

structure IsReady (t : Toolchain) (compiler : Text) (settled : List (List Rune)) : Prop where
  compiler : t.compiler.located? = some compiler
  flags : t.settings.getD Settings.flagsName (.array []) = .array (settled.map .string)

variable {t : Toolchain} {compiler : Text} {settled : List (List Rune)}

theorem IsReady.buildCommand_eq (ht : t.IsReady compiler settled) (source : Text) (flags : List Text) :
    t.buildCommand source flags =
      .ok (.ofText compiler :: settled.map .string ++ flags.map .ofText ++ [.ofText source]) := by
  rw [buildCommand, settledFlags, ht.flags, Tool.head, ht.compiler]
  rfl

theorem IsReady.flagsFault?_eq (ht : t.IsReady compiler settled) : t.flagsFault? = none := by
  rw [flagsFault?, ht.flags]
  exact partFault?_eq_none (List.forall_mem_map.mpr fun _ _ => rfl) 1

/-- The compiler runs first, on the arguments of the preferences, those of the user and the source file. -/
theorem Legal.exists_first {path : AbsolutePath} {flags : List Text} {h : Host} {runs : List Run}
    (hl : t.Legal path flags h runs) (ht : t.IsReady compiler settled) :
    ∃ first more, runs = first :: more ∧
      first.command = .ofText compiler :: settled.map .string ++ flags.map .ofText ++ [.ofText path.text] := by
  cases hruns : runs with
  | nil =>
    rcases hl.eq_nil_iff.mp hruns with hc | hf
    · rw [ht.compiler] at hc
      cases hc
    · rw [ht.flagsFault?_eq] at hf
      cases hf
  | cons first more =>
    have hcommand := (hl.first first (by rw [hruns]; rfl)).1
    rw [ht.buildCommand_eq] at hcommand
    exact ⟨first, more, rfl, (Except.ok.inj hcommand).symm⟩

end Toolchain

namespace CommandLine

open Command

/-! ### Reading the arguments -/

theorem Item.ofArguments_eq_mapM {arguments : List Text} (h : dividerText ∉ arguments) :
    ofArguments arguments = arguments.mapM ofArgument := by
  induction arguments with
  | nil => rfl
  | cons argument rest ih =>
    rw [List.mem_cons, not_or] at h
    rw [ofArguments, if_neg (Ne.symm h.1), ih h.2, List.mapM_cons]

def printArgument : Text := "--print"

def flagsArgument (flags : List Text) : Text := "--flags=" ++ ShellWords.join flags

def buildArguments (prints : Bool) (flags : List Text) (file : Text) : List Text :=
  if prints then [printArgument, flagsArgument flags, file] else [flagsArgument flags, file]

theorem Item.ofArgument_print : ofArgument printArgument = .ok (.switch (.toggle .print) false none) := rfl

theorem Item.ofArgument_flags (flags : List Text) :
    ofArgument (flagsArgument flags) = .ok (.switch (.slot .flags) false (some (ShellWords.join flags))) := rfl

theorem Item.ofArgument_word {argument : Text} (h : argument.head? ≠ some '-') :
    ofArgument argument = .ok (.word argument) := if_pos (.inl h)

variable {arguments flags : List Text} {prints : Bool} {file : Text}

theorem dividerText_not_mem_buildArguments (hd : file.head? ≠ some '-') :
    dividerText ∉ buildArguments prints flags file := by
  have hprint : dividerText ≠ printArgument := by decide
  have hflags : dividerText ≠ flagsArgument flags := nofun
  have hfile : dividerText ≠ file := fun h => hd (by rw [← h]; rfl)
  cases prints <;> simp [buildArguments, hprint, hflags, hfile]

/-- What is asked for does not depend on the order of the arguments. -/
theorem ofArguments_of_perm (ha : arguments.Perm (buildArguments prints flags file)) (hd : file.head? ≠ some '-') :
    Request.ofArguments arguments =
      .ok {
        file := some file
        flags := if flags = [dividerText] then none else some (ShellWords.join flags)
        printsOnce := prints } := by
  have hdivider : dividerText ∉ arguments := mt ha.mem_iff.mp (dividerText_not_mem_buildArguments hd)
  have hfile := Item.ofArgument_word hd
  have hvalue : (if flags = [dividerText] then none else some (ShellWords.join flags)) =
      if ShellWords.join flags = dividerText then none else some (ShellWords.join flags) :=
    if_congr ShellWords.join_eq_dividerText_iff.symm rfl rfl
  rw [Request.ofArguments, Item.ofArguments_eq_mapM hdivider, hvalue]
  -- Without a divider each argument is an item by itself, and only the orders of two or three items are left.
  cases prints with
  | false =>
    have horder : arguments ∈ [[flagsArgument flags, file], [file, flagsArgument flags]] :=
      List.mem_permutations'.mpr ha
    simp only [List.mem_cons, List.not_mem_nil, or_false] at horder
    rcases horder with rfl | rfl <;>
      simp only [List.mapM_cons, List.mapM_nil, Item.ofArgument_flags, hfile] <;> rfl
  | true =>
    have horder : arguments ∈
        [[printArgument, flagsArgument flags, file], [flagsArgument flags, printArgument, file],
         [flagsArgument flags, file, printArgument], [printArgument, file, flagsArgument flags],
         [file, printArgument, flagsArgument flags], [file, flagsArgument flags, printArgument]] :=
      List.mem_permutations'.mpr ha
    simp only [List.mem_cons, List.not_mem_nil, or_false] at horder
    rcases horder with rfl | rfl | rfl | rfl | rfl | rfl <;>
      simp only [List.mapM_cons, List.mapM_nil, Item.ofArgument_print, Item.ofArgument_flags, hfile] <;> rfl

/-! ### What becomes of the words -/

theorem run_of_flags_eq_none {r : Request} (hr : Request.ofArguments arguments = .ok r)
    (hv : r.showsVersion = false) (hf : r.flags = none) (t : Terminal) :
    run arguments t = (.fault .noWords, t.started) := by
  have hwords : r.words = .error .noWords := by rw [Request.words, hf]
  rw [run_eq_of_request hr, run_serve_of_words_eq_error hv hwords]

/-- The request is to build a file with some words for the compiler, to be printed or to be shown on the screen. -/
structure Request.Builds (r : Request) (prints : Bool) (file : Text) (flags : List Text) : Prop where
  showsVersion : r.showsVersion = false
  dump : given? r.dump = none
  printsOnce : r.printsOnce = prints
  file : given? r.file = some file
  words : r.words = .ok flags

variable {r : Request} {t : Terminal} {made : Host} {s : Session} {source : Text}

theorem Request.builds_join (hn : file ≠ []) (prints : Bool) (flags : List Text) :
    Request.Builds { file := some file, flags := some (ShellWords.join flags), printsOnce := prints } prints file flags
      where
  showsVersion := rfl
  dump := rfl
  printsOnce := rfl
  file := by rw [given?, Option.filter_some, if_pos (decide_eq_true hn)]
  words := congrArg (Except.mapError Fault.words) (ShellWords.split_join flags)

theorem Request.Builds.run_serve (hb : r.Builds prints file flags) (hs : t.HasSource file) :
    (serve r).run.run t = (do
      logTo (if prints then .console else .file) r.isVerbose
      if prints then printOnce (t.source file) flags
      else openScreen (t.source file) flags : Command Unit).run.run t := by
  rw [run_serve_source hb.showsVersion hb.words hb.dump, hb.file, hb.printsOnce, run_bind_of_eq_ok (run_sourcePath hs)]

/-- What keeps messages from being logged where they are for a listing that is printed, or for the screen. -/
def openingFault? (prints : Bool) (h : Host) : Option Fault := if prints then none else h.additionFault? logFile

/-- The terminal when it is settled how messages are logged. -/
def Terminal.ready (t : Terminal) (prints : Bool) : Terminal :=
  ((logTo (if prints then .console else .file) false).run.run t.started).2

theorem run_logTo (prints : Bool) (t : Terminal) :
    match openingFault? prints t.host with
    | some f => (logTo (if prints then .console else .file) false).run.run t.started = (.error (.fault f), t.started)
    | none => (logTo (if prints then .console else .file) false).run.run t.started = (.ok (), t.ready prints) ∧
        ∃ logging files threshold,
          t.ready prints = { t with logging, host.files := files, host.threshold := threshold } := by
  unfold Terminal.ready
  cases prints with
  | true =>
    obtain ⟨logging, threshold, hlog⟩ := run_logTo_console false t.started
    rw [if_pos rfl, hlog]
    exact ⟨rfl, logging, t.host.files, threshold, rfl⟩
  | false =>
    have hlog := run_logTo_file false t.started
    have hfault : openingFault? false t.host = t.started.host.additionFault? logFile := rfl
    rw [hfault]
    cases hf : t.started.host.additionFault? logFile with
    | some f =>
      rw [hf] at hlog
      exact hlog
    | none =>
      rw [hf] at hlog
      obtain ⟨logging, files, threshold, hlog⟩ := hlog
      rw [if_neg Bool.false_ne_true, hlog]
      exact ⟨rfl, logging, files, threshold, rfl⟩

/-- Once it is settled how messages are logged, the file is built. -/
theorem Request.Builds.run_serve_started (hb : r.Builds prints file flags) (hv : r.isVerbose = false)
    (hs : t.HasSource file) :
    match openingFault? prints t.host with
    | some f => (serve r).run.run t.started = (.error (.fault f), t.started)
    | none => (serve r).run.run t.started =
        (if prints then printOnce (t.source file) flags else openScreen (t.source file) flags).run.run
          (t.ready prints) := by
  have hstarted : t.started.HasSource file := hs
  have hsource : t.started.source file = t.source file := rfl
  have hlog := run_logTo prints t
  rw [hb.run_serve hstarted, hv, hsource]
  cases ho : openingFault? prints t.host with
  | some f =>
    rw [ho] at hlog
    exact run_bind_of_eq_error hlog _
  | none =>
    rw [ho] at hlog
    exact run_bind_of_eq_ok hlog.1 _

/-! ### Opening the session -/

theorem run_load_session {preferences : Settings} {h : Host} (source : Text)
    (hl : Settings.load.run.run h = (.ok preferences, made)) :
    ∃ logs, (Session.load source).run.run h =
      ((Toolchain.found made preferences).map fun toolchain => { build := { source }, toolchain },
        { made with journal.logs := logs }) := by
  obtain ⟨logs, hload⟩ := run_load_of_eq_ok hl
  refine ⟨logs, ?_⟩
  unfold Session.load
  cases hf : Toolchain.found made preferences with
  | error f =>
    rw [hf] at hload
    exact Attempt.run_bind_of_eq_error hload _
  | ok toolchain =>
    rw [hf] at hload
    exact Attempt.run_bind_of_eq_ok hload _

theorem run_build_of_load_error {f : Fault} (hl : (Session.load source).run.run t.host = (.error f, made))
    (prints : Bool) (flags : List Text) :
    (if prints then printOnce source flags else openScreen source flags).run.run t =
      (.error (.exit 1),
        { t with host := made, output := t.output ++ [.out ("Fatal Error: " ++ f.message ++ ['\n'])] }) := by
  have hopen : (openSession source flags).run.run t = (.error (.exit 1),
      { t with host := made, output := t.output ++ [.out ("Fatal Error: " ++ f.message ++ ['\n'])] }) := by
    unfold openSession
    rw [run_bind_of_eq_ok (run_attempt _ t), hl]
    dsimp only
    rw [abortFor, run_abort]
    rfl
  cases prints with
  | true => exact run_bind_of_eq_error hopen _
  | false => exact run_bind_of_eq_error hopen _

/-- The compiler comes first, unless the source file cannot be read. -/
theorem runs_printOnce {compiler : Text} {settled : List (List Rune)}
    (hl : (Session.load source).run.run t.host = (.ok s, made)) (hr : s.toolchain.IsReady compiler settled)
    (flags : List Text) :
    match made.text source with
    | .ok _ => ∃ first more,
        ((printOnce source flags).run.run t).2.host.journal.runs = t.host.journal.runs ++ first :: more ∧
        first.command = .ofText compiler :: settled.map .string ++ flags.map .ofText ++
          [.ofText (made.resolve source).text]
    | .error _ => ((printOnce source flags).run.run t).2.host.journal.runs = t.host.journal.runs := by
  rw [run_printOnce hl]
  -- Loading the session runs no tool, so the first run is the one that the refresh begins with.
  have hmade : made.journal.runs = t.host.journal.runs := Session.runs_of_load hl
  have hsource : s.build.source = source := by rw [Session.build_load hl]
  obtain ⟨runs, hruns, hlegal⟩ := Session.legal_refresh { s with flags, isSubscribed := false } made
  dsimp only at hruns hlegal ⊢
  rw [hsource] at hlegal
  rw [hruns, hmade]
  cases hc : made.text source with
  | error f =>
    rw [hc] at hlegal
    dsimp only at hlegal ⊢
    rw [hlegal, List.append_nil]
  | ok code =>
    rw [hc] at hlegal
    obtain ⟨first, more, hcons, hcommand⟩ := hlegal.exists_first hr
    exact ⟨first, more, by rw [hcons], hcommand⟩

theorem screen_openScreen (hl : (Session.load source).run.run t.host = (.ok s, made)) (flags : List Text) :
    ((openScreen source flags).run.run t).2.screen = some { s with flags } := by
  have hset : (modify fun t => { t with screen := some { s with flags } } : Command Unit).run.run
      { t with host := made } = (.ok (), { t with host := made, screen := some { s with flags } }) := rfl
  unfold openScreen
  rw [run_bind_of_eq_ok (run_openSession hl flags), run_bind_of_eq_ok hset, run_bind_of_eq_ok (run_get _)]
  dsimp only
  cases t.screenEnd with
  | closed => rfl
  | interrupted => rfl
  | failed message =>
    dsimp only
    rw [abortFor, run_abort]

/-! ### The whole run -/

/-- The words come to the compiler as they are, behind the arguments of the preferences, or to the session that the
screen is opened on. Nothing is built if the log file of the screen cannot be opened, if the name of the disassembler
cannot be looked up, or if the source file cannot be read. A lone divider ends the run. -/
theorem run_of_buildArguments {compiler : Text} {settled : List (List Rune)} {preferences : Settings} {tool : Tool}
    (ha : arguments.Perm (buildArguments prints flags file)) (hn : file ≠ []) (hd : file.head? ≠ some '-')
    (hs : t.HasSource file)
    (hl : Settings.load.run.run (t.ready prints).host = (.ok preferences, made))
    (ht : Tool.find made (preferences.getD Settings.compilerName Settings.defaultCompiler) = .ok tool)
    (hc : tool.located? = some compiler)
    (hf : preferences.getD Settings.flagsName (.array []) = .array (settled.map .string)) :
    if flags = [dividerText] then run arguments t = (.fault .noWords, t.started)
    else
      match openingFault? prints t.host,
          Tool.find made (preferences.getD Settings.disassemblerName Settings.defaultDisassembler) with
      | some f, _ => run arguments t = (.fault f, t.started)
      | none, .error f =>
        (run arguments t).1 = .exit 1 ∧
          (run arguments t).2.output = t.output ++ [.out ("Fatal Error: " ++ f.message ++ ['\n'])] ∧
          (run arguments t).2.host.journal.runs = t.host.journal.runs ∧ (run arguments t).2.screen = t.screen
      | none, .ok disassembler =>
        if prints then
          match made.text (t.source file) with
          | .ok _ => ∃ first more, (run arguments t).2.host.journal.runs = t.host.journal.runs ++ first :: more ∧
              first.command = .ofText compiler :: settled.map .string ++ flags.map .ofText ++
                [.ofText (Path.absolute t.host.directory file).location.text]
          | .error _ => (run arguments t).2.host.journal.runs = t.host.journal.runs
        else
          (run arguments t).2.screen =
            some { build := { source := t.source file }, toolchain := ⟨preferences, tool, disassembler⟩, flags } := by
  have hrequest := ofArguments_of_perm ha hd
  split
  · rename_i hdivider
    rw [if_pos hdivider] at hrequest
    exact run_of_flags_eq_none hrequest rfl rfl t
  rename_i hdivider
  rw [if_neg hdivider] at hrequest
  have hserve := (Request.builds_join hn prints flags).run_serve_started rfl hs
  have hlog := run_logTo prints t
  cases ho : openingFault? prints t.host with
  | some f =>
    rw [ho] at hserve
    dsimp only at hserve ⊢
    rw [run_eq_of_request hrequest, hserve]
  | none =>
    rw [ho] at hserve hlog
    obtain ⟨-, logging, files, threshold, hready⟩ := hlog
    obtain ⟨logs, hload⟩ := run_load_session (t.source file) hl
    have hruns : (t.ready prints).host.journal.runs = t.host.journal.runs := by rw [hready]
    unfold Toolchain.found at hload
    rw [ht] at hload
    cases hdis : Tool.find made (preferences.getD Settings.disassemblerName Settings.defaultDisassembler) with
    | error f =>
      rw [hdis] at hload
      have hloaded := Session.runs_of_load hload
      rw [run_build_of_load_error hload] at hserve
      rw [run_eq_of_request hrequest, hserve, ← hruns, ← hloaded, hready]
      exact ⟨rfl, rfl, rfl, rfl⟩
    | ok disassembler =>
      rw [hdis] at hload
      dsimp only
      rw [snd_run_of_request hrequest, hserve]
      cases prints with
      | false => exact screen_openScreen hload flags
      | true =>
        have hfirst := runs_printOnce hload ⟨hc, hf⟩ flags
        have htext : ({ made with journal.logs := logs } : Host).text (t.source file) = made.text (t.source file) := rfl
        rw [htext, hruns] at hfirst
        rw [Host.resolve, Terminal.source, Path.text_resolve_absolute] at hfirst
        exact hfirst

def quietTerminal : Terminal where
  host := Session.listingHost.withEntry "/home/u/.jaibolt/config.json"
    (.file (Utf8.encode "\x7b\"flags\": [\"-quiet\"]\x7d"))

def loadsQuietly (source : Text) (h : Host) : Bool :=
  match Settings.load.run.run h with
  | (.ok preferences, made) =>
    match preferences.getD Settings.flagsName (.array []),
        Tool.find made (preferences.getD Settings.compilerName Settings.defaultCompiler),
        Tool.find made (preferences.getD Settings.disassemblerName Settings.defaultDisassembler), made.text source with
    | .array [.string flag], .ok tool, .ok _, .ok _ =>
      flag = Text.runes "-quiet" && tool.located? = some "/bin/jai"
    | _, _, _, _ => false
  | (.error _, _) => false

theorem exists_of_loadsQuietly {source : Text} {h : Host} (ht : loadsQuietly source h = true) :
    ∃ preferences made tool disassembler code, Settings.load.run.run h = (.ok preferences, made) ∧
      Tool.find made (preferences.getD Settings.compilerName Settings.defaultCompiler) = .ok tool ∧
      tool.located? = some "/bin/jai" ∧
      preferences.getD Settings.flagsName (.array []) = .array ([Text.runes "-quiet"].map .string) ∧
      Tool.find made (preferences.getD Settings.disassemblerName Settings.defaultDisassembler) = .ok disassembler ∧
      made.text source = .ok code := by
  unfold loadsQuietly at ht
  split at ht
  · rename_i preferences made hl
    split at ht
    · rename_i flag tool disassembler code hflags htool hdisassembler hcode
      obtain ⟨hflag, hcompiler⟩ := Bool.and_eq_true_iff.mp ht
      rw [of_decide_eq_true hflag] at hflags
      exact ⟨preferences, made, tool, disassembler, code, hl, htool, of_decide_eq_true hcompiler, hflags,
        hdisassembler, hcode⟩
    · cases ht
  · cases ht

def quotedWords : List Text := ["-plug", "it's", [], "--"]

def quotedArguments : List Text := ["x.jai", "--flags=-plug 'it'\"'\"'s' '' --", "--print"]

theorem run_of_buildArguments_quoted :
    ∃ preferences made tool first more, quotedArguments.Perm (buildArguments true quotedWords "x.jai") ∧
      Settings.load.run.run (quietTerminal.ready true).host = (.ok preferences, made) ∧
      Tool.find made (preferences.getD Settings.compilerName Settings.defaultCompiler) = .ok tool ∧
      preferences.getD Settings.flagsName (.array []) = .array ([Text.runes "-quiet"].map .string) ∧
      (run quotedArguments quietTerminal).2.host.journal.runs = quietTerminal.host.journal.runs ++ first :: more ∧
      first.command =
        .ofText "/bin/jai" :: [Text.runes "-quiet"].map .string ++ quotedWords.map .ofText ++
          [.ofText "/work/x.jai"] := by
  have hloads : loadsQuietly "/work/x.jai" (quietTerminal.ready true).host = true := by
    decide +kernel
  obtain ⟨preferences, made, tool, disassembler, code, hl, ht, hc, hf, hdis, hcode⟩ := exists_of_loadsQuietly hloads
  have hsource : quietTerminal.source "x.jai" = "/work/x.jai" := by decide +kernel
  have hlocation : (Path.absolute quietTerminal.host.directory "x.jai").location.text = "/work/x.jai" := by
    decide +kernel
  have ha : quotedArguments.Perm (buildArguments true quotedWords "x.jai") := by decide +kernel
  have hs : quietTerminal.HasSource "x.jai" := by decide +kernel
  have hwords : quotedWords ≠ [dividerText] := by decide
  have hrun := run_of_buildArguments ha (by decide) (by decide) hs hl ht hc hf
  have hopening : openingFault? true quietTerminal.host = none := rfl
  rw [if_neg hwords, hopening, hdis] at hrun
  dsimp only at hrun
  rw [if_pos rfl, hsource, hcode, hlocation] at hrun
  obtain ⟨first, more, hruns, hcommand⟩ := hrun
  exact ⟨preferences, made, tool, first, more, ha, hl, ht, hf, hruns, hcommand⟩

/-- A lone divider is lost, and nothing is compiled. -/
theorem exists_buildArguments_runs_eq :
    ∃ (arguments flags : List Text) (file : Text) (t : Terminal) (preferences : Settings) (made : Host) (tool : Tool)
      (compiler : Text) (settled : List (List Rune)) (code : Text),
      arguments.Perm (buildArguments true flags file) ∧ file ≠ [] ∧ file.head? ≠ some '-' ∧ t.HasSource file ∧
      Settings.load.run.run (t.ready true).host = (.ok preferences, made) ∧
      Tool.find made (preferences.getD Settings.compilerName Settings.defaultCompiler) = .ok tool ∧
      tool.located? = some compiler ∧
      preferences.getD Settings.flagsName (.array []) = .array (settled.map .string) ∧
      made.text (t.source file) = .ok code ∧
      (run arguments t).1 = .fault .noWords ∧ (run arguments t).2.host.journal.runs = t.host.journal.runs := by
  have hloads : loadsQuietly (quietTerminal.source "x.jai")
      (quietTerminal.ready true).host = true := by
    decide +kernel
  obtain ⟨preferences, made, tool, _, code, hl, ht, hc, hf, -, hcode⟩ := exists_of_loadsQuietly hloads
  have hrun : run (buildArguments true [dividerText] "x.jai") quietTerminal =
      (.fault .noWords, quietTerminal.started) :=
    run_of_flags_eq_none (ofArguments_of_perm (List.Perm.refl _) (by decide)) rfl rfl _
  have hs : quietTerminal.HasSource "x.jai" := by decide +kernel
  refine ⟨_, [dividerText], "x.jai", quietTerminal, preferences, made, tool, _, _, code, List.Perm.refl _, by decide,
    by decide, hs, hl, ht, hc, hf, hcode, ?_, ?_⟩
  · rw [hrun]
  · rw [hrun]
    exact (rfl : quietTerminal.started.host.journal.runs = quietTerminal.host.journal.runs)

end CommandLine

end DisasmLens
