import DisasmLens.Toolchain

/-!
# The tools that a compilation runs

`Toolchain.Course` lists the ways that a compilation can go, each with its result and its runs. The compiler runs
first, and the disassembler after it only if the compiler ended well and left an executable (`legal_of_compile`).
What the system refuses and a tool that is given up are reported; a tool that fails in another way, and preferences
that make no command, break the compilation off (`fst_compile_eq`).
-/

namespace DisasmLens

/-! ### Answers -/

namespace RunAnswer

def result (a : RunAnswer) : Except Fault RunAnswer :=
  match a.failure with
  | some (failure, message) => .error (.run failure message)
  | none => .ok a

def EndsWell (a : RunAnswer) : Prop := a.failure = none ∧ a.code = 0

instance (a : RunAnswer) : Decidable a.EndsWell := inferInstanceAs (Decidable (_ ∧ _))

/-- What a compiler said, on its output if there is nothing on its error output. -/
def report (a : RunAnswer) : Text := if a.errors = [] then a.output else a.errors

def unreported? (a : RunAnswer) : Option Fault :=
  a.failure.bind fun (failure, message) =>
    if (Fault.run failure message).isReported then none else some (.run failure message)

/-- What is reported of a run that failed, or another text if it only ended badly. -/
def complaintOr (a : RunAnswer) (other : Text) : Text :=
  match a.failure with
  | some (_, message) => "Jai compilation error: " ++ message
  | none => other

theorem result_of_failure_eq_none {a : RunAnswer} (h : a.failure = none) : a.result = .ok a := by
  rw [result, h]

theorem not_endsWell_of_result {a : RunAnswer} {f : Fault} (h : a.result = .error f) : ¬a.EndsWell := by
  intro hw
  rw [result_of_failure_eq_none hw.1] at h
  cases h

end RunAnswer

namespace Host

def answer (h : Host) : RunAnswer := h.answers.head?.getD {}

def answered (h : Host) : Host :=
  { h with
    files := h.answer.creates.foldl (fun fs path => fs.insert (h.locate path) (.file [])) h.files
    answers := h.answers.tail }

theorem foldl_withEntry (paths : List Text) (h : Host) :
    paths.foldl (fun h path => h.withEntry path (.file [])) h =
      { h with files := paths.foldl (fun fs path => fs.insert (h.locate path) (.file [])) h.files } := by
  induction paths generalizing h with
  | nil => rfl
  | cons path paths ih =>
    rw [List.foldl_cons, ih]
    rfl

end Host

theorem run_runTool (command : List Json) (directory : Option Text) (h : Host) :
    (runTool command directory).run.run h =
      (h.answer.result, { h.answered with journal.runs := h.journal.runs ++ [⟨command, directory⟩] }) := by
  unfold runTool RunAnswer.result
  rw [Attempt.run_bind_of_eq_ok (Attempt.run_get h)]
  dsimp only
  rw [Host.foldl_withEntry]
  unfold Host.answer
  cases hf : (h.answers.head?.getD {}).failure with
  | none => rfl
  | some failed => rfl

namespace Toolchain

/-! ### The command for the compiler -/

/-- The fault of the first value that is no text, when the values have places in a command. -/
def partFault? (first : Nat) (values : List Json) : Option Fault :=
  ((values.zipIdx first).find? fun v => v.1.kind ≠ .string).map fun v => .notAText v.2 v.1.kind

/-- What is wrong with the preference for the compiler's arguments: it is no list, or something in the list is no
text. The compiler itself has the place 0 in its command. -/
def flagsFault? (t : Toolchain) : Option Fault :=
  match t.settings.getD Settings.flagsName (.array []) with
  | .array items => partFault? 1 items
  | .string _ | .object _ => none
  | v => some (.notAList v.kind)

theorem partFault?_cons (first : Nat) (v : Json) (rest : List Json) :
    partFault? first (v :: rest) =
      if v.kind = .string then partFault? (first + 1) rest else some (.notAText first v.kind) := by
  by_cases hv : v.kind = .string <;> simp [partFault?, List.zipIdx_cons, hv]

theorem partFault?_append (first : Nat) (vs ws : List Json) :
    partFault? first (vs ++ ws) = (partFault? first vs).or (partFault? (first + vs.length) ws) := by
  rw [partFault?, List.zipIdx_append, List.find?_append, Option.map_or]
  rfl

theorem partFault?_eq_none {vs : List Json} (h : ∀ v ∈ vs, v.kind = .string) (first : Nat) :
    partFault? first vs = none := by
  induction vs generalizing first with
  | nil => rfl
  | cons v vs ih =>
    rw [partFault?_cons, if_pos (h v List.mem_cons_self)]
    exact ih (fun w hw => h w (List.mem_cons_of_mem v hw)) _

theorem partFault?_eq (first : Nat) (vs : List Json) :
    partFault? first vs = match commandTexts first vs with
      | .error f => some f
      | .ok _ => none := by
  induction vs generalizing first with
  | nil => rfl
  | cons v vs ih =>
    rw [partFault?_cons]
    cases v with
    | string s =>
      rw [if_pos (show (Json.string s).kind = .string from rfl), ih, commandTexts]
      cases commandTexts (first + 1) vs <;> rfl
    | _ => simp only [Json.kind, commandTexts, reduceCtorEq, if_false]

theorem flagsFault?_eq (t : Toolchain) :
    t.flagsFault? = match t.settledFlags with
      | .error f => some f
      | .ok settled => partFault? 1 settled := by
  have hstrings {α : Type} (f : α → List Rune) (l : List α) : partFault? 1 (l.map fun a => .string (f a)) = none :=
    partFault?_eq_none (List.forall_mem_map.mpr fun _ _ => rfl) 1
  unfold flagsFault? settledFlags
  cases t.settings.getD Settings.flagsName (.array []) with
  | string s => exact (hstrings (fun r => [r]) s).symm
  | object fields => exact (hstrings (fun name => name) (Fields.names fields)).symm
  | _ => rfl

/-- The parts of the command that the preferences do not give are texts, if the compiler was found. -/
theorem partFault?_command {t : Toolchain} (hc : t.compiler.located?.isSome = true) (settled : List Json)
    (source : Text) (flags : List Text) :
    partFault? 0 (t.compiler.head :: settled ++ flags.map .ofText ++ [.ofText source]) = partFault? 1 settled := by
  obtain ⟨path, hpath⟩ := Option.isSome_iff_exists.mp hc
  -- The name of a compiler that is not found need not be a string; its path is one.
  have hhead : t.compiler.head.kind = .string := by
    rw [Tool.head, hpath]
    rfl
  have htail : ∀ v ∈ flags.map Json.ofText ++ [Json.ofText source], v.kind = .string := by
    intro v hv
    rcases List.mem_append.mp hv with hv | hv
    · obtain ⟨flag, -, rfl⟩ := List.mem_map.mp hv
      rfl
    · cases List.mem_singleton.mp hv
      rfl
  rw [List.append_assoc, List.cons_append, partFault?_cons, if_pos hhead, partFault?_append,
    partFault?_eq_none htail, Option.or_none]

/-- Behind the search for the compiler, a compilation goes on with its command exactly if the preferences allow one. -/
theorem command_cases {t : Toolchain} (hc : t.compiler.located?.isSome = true) (source : Text) (flags : List Text) :
    (∃ f, t.flagsFault? = some f ∧ (t.buildCommand source flags >>= commandTexts 0) = .error f) ∨
      ∃ command texts, t.flagsFault? = none ∧ t.buildCommand source flags = .ok command ∧
        commandTexts 0 command = .ok texts := by
  have hflags := t.flagsFault?_eq
  unfold buildCommand
  cases hs : t.settledFlags with
  | error f =>
    rw [hs] at hflags
    exact .inl ⟨f, hflags, rfl⟩
  | ok settled =>
    rw [hs] at hflags
    dsimp only at hflags
    rw [← partFault?_command hc settled source flags, partFault?_eq] at hflags
    cases ht : commandTexts 0 (t.compiler.head :: settled ++ flags.map .ofText ++ [.ofText source]) with
    | error f =>
      rw [ht] at hflags
      exact .inl ⟨f, hflags, ht⟩
    | ok texts =>
      rw [ht] at hflags
      exact .inr ⟨_, texts, hflags, rfl, ht⟩

/-! ### The course of a compilation -/

/-- The disassembler's turn comes: the compiler ended well and left an executable, and there is a disassembler. -/
def Disassembles (t : Toolchain) (path : AbsolutePath) (h : Host) : Prop :=
  h.answer.EndsWell ∧ h.answered.hasEntry (Path.executable path.text) = true ∧ t.disassembler.located?.isSome = true

instance (t : Toolchain) (path : AbsolutePath) (h : Host) : Decidable (t.Disassembles path h) :=
  inferInstanceAs (Decidable (_ ∧ _ ∧ _))

def firstRun (path : AbsolutePath) (command : List Json) : Run := ⟨command, some path.parent.text⟩

def secondRun (t : Toolchain) (path : AbsolutePath) : Run :=
  ⟨t.disassembleCommand (Path.executable path.text), none⟩

/-- The ways that the runs of the tools can go from a command for the compiler, with what comes of them. -/
inductive Tools (t : Toolchain) (path : AbsolutePath) (command : List Json) (h : Host) :
    Except Fault (Text × Text) → List Run → Prop where
  | unbuilt {f : Fault} (hf : h.answer.result = .error f) : Tools t path command h (.error f) [firstRun path command]
  | failed (hf : h.answer.failure = none) (hcode : h.answer.code ≠ 0) :
      Tools t path command h (.ok ([], h.answer.report)) [firstRun path command]
  | noProgram (hb : h.answer.EndsWell) (hp : h.answered.hasEntry (Path.executable path.text) = false) :
      Tools t path command h
        (.ok ([], "Expected executable '" ++ Path.executable path.text ++ "' was not produced.\n" ++ h.answer.report))
        [firstRun path command]
  | noDisassembler (hb : h.answer.EndsWell) (hp : h.answered.hasEntry (Path.executable path.text) = true)
      (hd : t.disassembler.located? = none) :
      Tools t path command h (.ok ([], "Error: " ++ t.disassembler.name.display ++ " not installed."))
        [firstRun path command]
  | unlisted {f : Fault} (hd : t.Disassembles path h) (hf : h.answered.answer.result = .error f) :
      Tools t path command h (.error f) [firstRun path command, t.secondRun path]
  | unread (hd : t.Disassembles path h) (hf : h.answered.answer.failure = none)
      (hcode : h.answered.answer.code ≠ 0) :
      Tools t path command h (.ok ([], "objdump error: " ++ h.answered.answer.errors))
        [firstRun path command, t.secondRun path]
  | listed (hd : t.Disassembles path h) (hl : h.answered.answer.EndsWell) :
      Tools t path command h (.ok (h.answered.answer.output, h.answer.report))
        [firstRun path command, t.secondRun path]

def built (path : AbsolutePath) (command : List Json) (h : Host) : Host :=
  { h.answered with journal.runs := h.journal.runs ++ [firstRun path command] }

theorem tools_dump {t : Toolchain} {path : AbsolutePath} {h : Host} (hd : t.Disassembles path h) (command : List Json) :
    let dumping : Attempt (Text × Text) := do
      let dump ← runTool (t.disassembleCommand (Path.executable path.text)) none
      if dump.code ≠ 0 then return ([], "objdump error: " ++ dump.errors)
      return (dump.output, h.answer.report)
    ∃ runs, t.Tools path command h (dumping.run.run (built path command h)).1 runs ∧
      (dumping.run.run (built path command h)).2.journal.runs = h.journal.runs ++ runs := by
  intro dumping
  have hsecond := run_runTool (t.disassembleCommand (Path.executable path.text)) none (built path command h)
  have hanswer : (built path command h).answer = h.answered.answer := rfl
  have hruns : (built path command h).journal.runs ++ [t.secondRun path] =
      h.journal.runs ++ [firstRun path command, t.secondRun path] := List.append_assoc _ _ _
  rw [hanswer] at hsecond
  cases hf : h.answered.answer.failure with
  | some failed =>
    have hresult : h.answered.answer.result = .error (.run failed.1 failed.2) := by rw [RunAnswer.result, hf]
    rw [hresult] at hsecond
    rw [Attempt.run_bind_of_eq_error hsecond]
    exact ⟨_, .unlisted hd hresult, hruns⟩
  | none =>
    rw [RunAnswer.result_of_failure_eq_none hf] at hsecond
    rw [Attempt.run_bind_of_eq_ok hsecond]
    dsimp only
    by_cases hcode : h.answered.answer.code ≠ 0
    · rw [if_pos hcode]
      exact ⟨_, .unread hd hf hcode, hruns⟩
    · rw [if_neg hcode]
      exact ⟨_, .listed hd ⟨hf, Decidable.of_not_not hcode⟩, hruns⟩

theorem tools_run (t : Toolchain) (command : List Json) (path : AbsolutePath) (h : Host) :
    ∃ runs, t.Tools path command h ((t.run command path).run.run h).1 runs ∧
      ((t.run command path).run.run h).2.journal.runs = h.journal.runs ++ runs := by
  unfold run
  have hfirst : (runTool command (some path.parent.text)).run.run h = (h.answer.result, built path command h) :=
    run_runTool command (some path.parent.text) h
  cases hf : h.answer.failure with
  | some failed =>
    have hresult : h.answer.result = .error (.run failed.1 failed.2) := by rw [RunAnswer.result, hf]
    rw [hresult] at hfirst
    rw [Attempt.run_bind_of_eq_error hfirst]
    exact ⟨_, .unbuilt hresult, rfl⟩
  | none =>
    rw [RunAnswer.result_of_failure_eq_none hf] at hfirst
    rw [Attempt.run_bind_of_eq_ok hfirst]
    dsimp only
    by_cases hcode : h.answer.code ≠ 0
    · rw [if_pos hcode]
      exact ⟨_, .failed hf hcode, rfl⟩
    have hb : h.answer.EndsWell := ⟨hf, Decidable.of_not_not hcode⟩
    have hthere : (built path command h).hasEntry (Path.executable path.text) =
        h.answered.hasEntry (Path.executable path.text) := rfl
    rw [if_neg hcode, Attempt.run_bind_of_eq_ok (Attempt.run_get _), hthere]
    cases hp : h.answered.hasEntry (Path.executable path.text) with
    | false => exact ⟨_, .noProgram hb hp, rfl⟩
    | true =>
      rw [if_neg (by decide)]
      cases hd : t.disassembler.located? with
      | none => exact ⟨_, .noDisassembler hb hp hd, rfl⟩
      | some disassembler =>
        rw [Option.isNone_some, if_neg Bool.false_ne_true]
        exact tools_dump ⟨hb, hp, by rw [hd]; rfl⟩ command

def concluded : Except Fault (Text × Text) → Except Fault (Text × Text)
  | .ok built => .ok built
  | .error f => if f.isReported then .ok ([], "Jai compilation error: " ++ f.message) else .error f

/-- The ways that a compilation can go, with its result and the runs that it makes. -/
inductive Course (t : Toolchain) (path : AbsolutePath) (flags : List Text) (h : Host) :
    Except Fault (Text × Text) → List Run → Prop where
  | notFound (hc : t.compiler.located? = none) :
      Course t path flags h (.ok ([], "Compiler '" ++ t.compiler.name.display ++ "' not configured or not found.")) []
  | noCommand {f : Fault} (hc : t.compiler.located?.isSome = true) (hf : t.flagsFault? = some f) :
      Course t path flags h (.error f) []
  | tools {command : List Json} {result : Except Fault (Text × Text)} {runs : List Run}
      (hc : t.compiler.located?.isSome = true) (hf : t.flagsFault? = none)
      (hb : t.buildCommand path.text flags = .ok command) (ht : t.Tools path command h result runs) :
      Course t path flags h (concluded result) runs

theorem Tools.of_logs {t : Toolchain} {path : AbsolutePath} {command : List Json} {h : Host} {logs : List LogRecord}
    {result : Except Fault (Text × Text)} {runs : List Run}
    (ht : t.Tools path command { h with journal.logs := logs } result runs) : t.Tools path command h result runs := by
  cases ht with
  | unbuilt hf => exact .unbuilt hf
  | failed hf hcode => exact .failed hf hcode
  | noProgram hb hp => exact .noProgram hb hp
  | noDisassembler hb hp hd => exact .noDisassembler hb hp hd
  | unlisted hd hf => exact .unlisted hd hf
  | unread hd hf hcode => exact .unread hd hf hcode
  | listed hd hl => exact .listed hd hl

theorem run_compile_of_flagsFault? {t : Toolchain} {f : Fault} (hc : t.compiler.located?.isSome = true)
    (hf : t.flagsFault? = some f) (source : Text) (flags : List Text) (h : Host) :
    (t.compile source flags).run.run h = (.error f, h) := by
  have hfound : ¬t.compiler.located?.isNone = true := by
    rw [← Option.not_isSome, hc]
    decide
  unfold compile
  rw [if_neg hfound, Attempt.run_bind_of_eq_ok (Attempt.run_get h)]
  dsimp only
  rw [Attempt.run_ofExcept_bind]
  rcases command_cases hc (h.resolve source).text flags with ⟨g, hg, hnone⟩ | ⟨command, texts, hnone, -, -⟩
  · cases hf.symm.trans hg
    cases hb : t.buildCommand (h.resolve source).text flags with
    | error g =>
      rw [hb] at hnone
      cases hnone
      rfl
    | ok command =>
      rw [hb] at hnone
      have htexts : commandTexts 0 command = .error f := hnone
      dsimp only
      rw [Attempt.run_ofExcept_bind, htexts]
  · rw [hnone] at hf
    cases hf

/-- With a command, compiling is running it, but for what is logged and for faults that are reported. -/
theorem run_compile_of_command {t : Toolchain} {command : List Json} {texts : List Text} {source : Text}
    {flags : List Text} {h : Host} (hc : t.compiler.located?.isSome = true)
    (hb : t.buildCommand (h.resolve source).text flags = .ok command) (ht : commandTexts 0 command = .ok texts) :
    ∃ logs,
      let ran := (t.run command (h.resolve source)).run.run { h with journal.logs := logs }
      ((t.compile source flags).run.run h).1 = concluded ran.1 ∧
        ((t.compile source flags).run.run h).2.journal.runs = ran.2.journal.runs := by
  have hfound : ¬t.compiler.located?.isNone = true := by
    rw [← Option.not_isSome, hc]
    decide
  -- The tools run behind a message that may or may not be logged.
  obtain ⟨logs, hlogs⟩ := snd_log .debug .toolchain ("Compiling: " ++ Text.joinWith [' '] texts) h
  have hlog : (liftM (log .debug .toolchain ("Compiling: " ++ Text.joinWith [' '] texts)) : Attempt Unit).run.run h =
      (.ok (), { h with journal.logs := logs }) := by
    rw [← hlogs]
    rfl
  refine ⟨logs, ?_⟩
  unfold compile
  rw [if_neg hfound, Attempt.run_bind_of_eq_ok (Attempt.run_get h)]
  dsimp only
  rw [Attempt.run_ofExcept_bind, hb]
  dsimp only
  rw [Attempt.run_ofExcept_bind, ht]
  dsimp only
  rw [Attempt.run_bind_of_eq_ok hlog, Attempt.run_bind_of_eq_ok (Attempt.run_result _ _)]
  cases (t.run command (h.resolve source)).run.run { h with journal.logs := logs } with
  | mk result made =>
    cases result with
    | ok built => exact ⟨rfl, rfl⟩
    | error f =>
      dsimp only [concluded]
      split
      · obtain ⟨later, hlater⟩ := snd_log .error .toolchain ("Compilation of " ++ source ++ " failed") made
        exact ⟨rfl, congrArg (fun h => h.journal.runs) hlater⟩
      · exact ⟨rfl, rfl⟩

theorem course_compile_of_command {t : Toolchain} (hc : t.compiler.located?.isSome = true)
    (hf : t.flagsFault? = none) (source : Text) (flags : List Text) (h : Host) :
    ∃ runs, t.Course (h.resolve source) flags h ((t.compile source flags).run.run h).1 runs ∧
      ((t.compile source flags).run.run h).2.journal.runs = h.journal.runs ++ runs := by
  rcases command_cases hc (h.resolve source).text flags with ⟨g, hg, -⟩ | ⟨command, texts, -, hb, ht⟩
  · rw [hf] at hg
    cases hg
  · obtain ⟨logs, hresult, hmade⟩ := run_compile_of_command hc hb ht
    obtain ⟨runs, htools, hruns⟩ := t.tools_run command (h.resolve source) { h with journal.logs := logs }
    rw [hresult, hmade]
    exact ⟨runs, .tools hc hf hb htools.of_logs, hruns⟩

theorem course_compile (t : Toolchain) (source : Text) (flags : List Text) (h : Host) :
    ∃ runs, t.Course (h.resolve source) flags h ((t.compile source flags).run.run h).1 runs ∧
      ((t.compile source flags).run.run h).2.journal.runs = h.journal.runs ++ runs := by
  cases hc : t.compiler.located? with
  | none =>
    refine ⟨[], ?_⟩
    unfold compile
    rw [hc, List.append_nil]
    exact ⟨.notFound hc, rfl⟩
  | some compiler =>
    have hfound : t.compiler.located?.isSome = true := by
      rw [hc]
      rfl
    cases hf : t.flagsFault? with
    | some f =>
      refine ⟨[], ?_⟩
      rw [run_compile_of_flagsFault? hfound hf, List.append_nil]
      exact ⟨.noCommand hfound hf, rfl⟩
    | none => exact course_compile_of_command hfound hf source flags h

/-! ### The order of the runs -/

/-- Runs in the order that is legal: the compiler on its command and in the directory of the source file, then, if its
turn comes, the disassembler on the executable. Without a compiler and a command for it nothing is run. -/
structure Legal (t : Toolchain) (path : AbsolutePath) (flags : List Text) (h : Host) (runs : List Run) : Prop where
  length_le : runs.length ≤ 2
  eq_nil_iff : runs = [] ↔ t.compiler.located? = none ∨ t.flagsFault?.isSome = true
  first : ∀ run ∈ runs[0]?, t.buildCommand path.text flags = .ok run.command ∧ run.directory = some path.parent.text
  second : ∀ run ∈ runs[1]?, run.command = t.disassembleCommand (Path.executable path.text) ∧ run.directory = none
  length_eq_iff : runs.length = 2 ↔ runs ≠ [] ∧ t.Disassembles path h

variable {t : Toolchain} {path : AbsolutePath} {command : List Json} {flags : List Text} {h : Host}
  {result : Except Fault (Text × Text)} {runs : List Run}

theorem Tools.runs_eq (ht : t.Tools path command h result runs) :
    runs = firstRun path command :: if t.Disassembles path h then [t.secondRun path] else [] := by
  cases ht with
  | unbuilt hf => rw [if_neg fun hd => RunAnswer.not_endsWell_of_result hf hd.1]
  | failed hf hcode => rw [if_neg fun hd => hcode hd.1.2]
  | noProgram hb hp => rw [if_neg fun hd => Bool.eq_false_iff.mp hp hd.2.1]
  | noDisassembler hb hp hd =>
    rw [if_neg]
    intro hdisassembles
    have hsome := hdisassembles.2.2
    rw [hd] at hsome
    cases hsome
  | unlisted hd hf => rw [if_pos hd]
  | unread hd hf hcode => rw [if_pos hd]
  | listed hd hl => rw [if_pos hd]

theorem Course.legal (hc : t.Course path flags h result runs) : t.Legal path flags h runs := by
  cases hc with
  | notFound hc =>
    exact
      { length_le := Nat.zero_le 2
        eq_nil_iff := iff_of_true rfl (.inl hc)
        first := nofun
        second := nofun
        length_eq_iff := ⟨nofun, fun h => absurd rfl h.1⟩ }
  | noCommand hc hf =>
    exact
      { length_le := Nat.zero_le 2
        eq_nil_iff := iff_of_true rfl (.inr (by rw [hf]; rfl))
        first := nofun
        second := nofun
        length_eq_iff := ⟨nofun, fun h => absurd rfl h.1⟩ }
  | tools hc hf hb ht =>
    rw [ht.runs_eq]
    have hfound : ¬(t.compiler.located? = none ∨ t.flagsFault?.isSome = true) := by
      rintro (hnone | hsome)
      · rw [hnone] at hc
        cases hc
      · rw [hf] at hsome
        cases hsome
    split
    · rename_i hd
      exact
        { length_le := Nat.le_refl 2
          eq_nil_iff := iff_of_false (List.cons_ne_nil _ _) hfound
          first := fun run hr => by cases hr; exact ⟨hb, rfl⟩
          second := fun run hr => by cases hr; exact ⟨rfl, rfl⟩
          length_eq_iff := iff_of_true rfl ⟨List.cons_ne_nil _ _, hd⟩ }
    · rename_i hd
      exact
        { length_le := Nat.le_succ 1
          eq_nil_iff := iff_of_false (List.cons_ne_nil _ _) hfound
          first := fun run hr => by cases hr; exact ⟨hb, rfl⟩
          second := nofun
          length_eq_iff := iff_of_false nofun fun h => hd h.2 }

theorem eq_nil_of_concluded {f : Fault} {listing report : Text} (h : concluded (.error f) = .ok (listing, report)) :
    listing = [] := by
  simp only [concluded] at h
  split at h
  · cases h
    rfl
  · cases h

theorem Tools.result_eq (ht : t.Tools path command h result runs) :
    if runs.length = 2 ∧ h.answered.answer.EndsWell then
      concluded result = .ok (h.answered.answer.output, h.answer.report)
    else ∀ listing report, concluded result = .ok (listing, report) → listing = [] := by
  -- Before the disassembler has run, its answer tells nothing.
  have hsingle (run : Run) : ¬([run].length = 2 ∧ h.answered.answer.EndsWell) := nofun
  cases ht with
  | unbuilt hf =>
    rw [if_neg (hsingle _)]
    exact fun _ _ => eq_nil_of_concluded
  | failed hf hcode =>
    rw [if_neg (hsingle _)]
    exact fun _ _ he => by cases he; rfl
  | noProgram hb hp =>
    rw [if_neg (hsingle _)]
    exact fun _ _ he => by cases he; rfl
  | noDisassembler hb hp hd =>
    rw [if_neg (hsingle _)]
    exact fun _ _ he => by cases he; rfl
  | unlisted hd hf =>
    rw [if_neg fun hw => RunAnswer.not_endsWell_of_result hf hw.2]
    exact fun _ _ => eq_nil_of_concluded
  | unread hd hf hcode =>
    rw [if_neg fun hw => hcode hw.2.2]
    exact fun _ _ he => by cases he; rfl
  | listed hd hl =>
    rw [if_pos ⟨rfl, hl⟩]
    rfl

theorem Course.result_eq (hc : t.Course path flags h result runs) :
    if runs.length = 2 ∧ h.answered.answer.EndsWell then result = .ok (h.answered.answer.output, h.answer.report)
    else ∀ listing report, result = .ok (listing, report) → listing = [] := by
  cases hc with
  | notFound hc =>
    rw [if_neg nofun]
    exact fun _ _ he => by cases he; rfl
  | noCommand hc hf =>
    rw [if_neg nofun]
    exact nofun
  | tools hc hf hb ht => exact ht.result_eq

/-- A compilation makes its runs in the legal order. It has a listing only if both tools ran and ended well: what the
disassembler wrote, with the report of the compiler. -/
theorem legal_of_compile (t : Toolchain) (source : Text) (flags : List Text) (h : Host) :
    ∃ runs, ((t.compile source flags).run.run h).2.journal.runs = h.journal.runs ++ runs ∧
      t.Legal (h.resolve source) flags h runs ∧
      if runs.length = 2 ∧ h.answered.answer.EndsWell then
        ((t.compile source flags).run.run h).1 = .ok (h.answered.answer.output, h.answer.report)
      else ∀ listing report, ((t.compile source flags).run.run h).1 = .ok (listing, report) → listing = [] := by
  obtain ⟨runs, hcourse, hruns⟩ := t.course_compile source flags h
  exact ⟨runs, hruns, hcourse.legal, hcourse.result_eq⟩

/-! ### What breaks a compilation off -/

/-- The fault that a compilation does not report: of the preferences, or of a run that is neither refused by the
system nor given up. -/
def escape? (t : Toolchain) (path : AbsolutePath) (h : Host) : Option Fault :=
  if t.compiler.located? = none then none
  else
    t.flagsFault?.or
      (h.answer.unreported?.or (if t.Disassembles path h then h.answered.answer.unreported? else none))

/-- What a compilation reports that has no listing. -/
def complaint? (t : Toolchain) (path : AbsolutePath) (h : Host) : Option Text :=
  if t.compiler.located? = none then
    some ("Compiler '" ++ t.compiler.name.display ++ "' not configured or not found.")
  else if ¬h.answer.EndsWell then some (h.answer.complaintOr h.answer.report)
  else if h.answered.hasEntry (Path.executable path.text) = false then
    some ("Expected executable '" ++ Path.executable path.text ++ "' was not produced.\n" ++ h.answer.report)
  else if t.disassembler.located? = none then some ("Error: " ++ t.disassembler.name.display ++ " not installed.")
  else if ¬h.answered.answer.EndsWell then
    some (h.answered.answer.complaintOr ("objdump error: " ++ h.answered.answer.errors))
  else none

/-- What comes of a compilation by what breaks it off and by what it reports without a listing. -/
def conclusion (t : Toolchain) (path : AbsolutePath) (h : Host) : Except Fault (Text × Text) :=
  match t.escape? path h, t.complaint? path h with
  | some f, _ => .error f
  | none, some message => .ok ([], message)
  | none, none => .ok (h.answered.answer.output, h.answer.report)

theorem RunAnswer.concluded_result {a : RunAnswer} {f : Fault} (h : a.result = .error f) (other : Text) :
    concluded (.error f) = match a.unreported? with
      | some g => .error g
      | none => .ok ([], a.complaintOr other) := by
  unfold RunAnswer.result at h
  cases ha : a.failure with
  | none =>
    rw [ha] at h
    cases h
  | some failed =>
    obtain ⟨failure, message⟩ := failed
    rw [ha] at h
    cases h
    simp only [concluded, RunAnswer.unreported?, RunAnswer.complaintOr, ha, Option.bind_some]
    split <;> rfl

theorem RunAnswer.unreported?_eq_none {a : RunAnswer} (h : a.failure = none) : a.unreported? = none := by
  rw [RunAnswer.unreported?, h]
  rfl

theorem escape?_of_not_disassembles (hc : t.compiler.located?.isSome = true) (hf : t.flagsFault? = none)
    (hn : ¬t.Disassembles path h) : t.escape? path h = h.answer.unreported? := by
  rw [escape?, if_neg (Option.isSome_iff_ne_none.mp hc), hf, Option.none_or, if_neg hn, Option.or_none]

theorem escape?_of_disassembles (hc : t.compiler.located?.isSome = true) (hf : t.flagsFault? = none)
    (hd : t.Disassembles path h) : t.escape? path h = h.answered.answer.unreported? := by
  rw [escape?, if_neg (Option.isSome_iff_ne_none.mp hc), hf, Option.none_or, if_pos hd,
    RunAnswer.unreported?_eq_none hd.1.1, Option.none_or]

theorem complaint?_of_not_endsWell (hc : t.compiler.located?.isSome = true) (hn : ¬h.answer.EndsWell) :
    t.complaint? path h = some (h.answer.complaintOr h.answer.report) := by
  rw [complaint?, if_neg (Option.isSome_iff_ne_none.mp hc), if_pos hn]

theorem complaint?_of_endsWell (hc : t.compiler.located?.isSome = true) (hb : h.answer.EndsWell) :
    t.complaint? path h =
      if h.answered.hasEntry (Path.executable path.text) = false then
        some ("Expected executable '" ++ Path.executable path.text ++ "' was not produced.\n" ++ h.answer.report)
      else if t.disassembler.located? = none then
        some ("Error: " ++ t.disassembler.name.display ++ " not installed.")
      else if ¬h.answered.answer.EndsWell then
        some (h.answered.answer.complaintOr ("objdump error: " ++ h.answered.answer.errors))
      else none := by
  rw [complaint?, if_neg (Option.isSome_iff_ne_none.mp hc), if_neg (not_not_intro hb)]

theorem complaint?_of_disassembles (hc : t.compiler.located?.isSome = true) (hd : t.Disassembles path h) :
    t.complaint? path h =
      if ¬h.answered.answer.EndsWell then
        some (h.answered.answer.complaintOr ("objdump error: " ++ h.answered.answer.errors))
      else none := by
  have hthere : ¬h.answered.hasEntry (Path.executable path.text) = false := by
    rw [hd.2.1]
    decide
  rw [complaint?_of_endsWell hc hd.1, if_neg hthere, if_neg (Option.isSome_iff_ne_none.mp hd.2.2)]

theorem Tools.concluded_eq (ht : t.Tools path command h result runs) (hc : t.compiler.located?.isSome = true)
    (hf : t.flagsFault? = none) : concluded result = t.conclusion path h := by
  unfold conclusion
  cases ht with
  | unbuilt hfault =>
    have hnot := RunAnswer.not_endsWell_of_result hfault
    rw [RunAnswer.concluded_result hfault h.answer.report, escape?_of_not_disassembles hc hf fun hd => hnot hd.1,
      complaint?_of_not_endsWell hc hnot]
    cases h.answer.unreported? <;> rfl
  | failed hran hcode =>
    have hnot : ¬h.answer.EndsWell := fun hw => hcode hw.2
    rw [escape?_of_not_disassembles hc hf fun hd => hnot hd.1, RunAnswer.unreported?_eq_none hran,
      complaint?_of_not_endsWell hc hnot, RunAnswer.complaintOr, hran]
    rfl
  | noProgram hb hp =>
    have hnot : ¬t.Disassembles path h := fun hd => Bool.eq_false_iff.mp hp hd.2.1
    rw [escape?_of_not_disassembles hc hf hnot, RunAnswer.unreported?_eq_none hb.1, complaint?_of_endsWell hc hb,
      if_pos hp]
    rfl
  | noDisassembler hb hp hd =>
    have hnot : ¬t.Disassembles path h := fun hd' => Option.isSome_iff_ne_none.mp hd'.2.2 hd
    have hthere : ¬h.answered.hasEntry (Path.executable path.text) = false := by
      rw [hp]
      decide
    rw [escape?_of_not_disassembles hc hf hnot, RunAnswer.unreported?_eq_none hb.1, complaint?_of_endsWell hc hb,
      if_neg hthere, if_pos hd]
    rfl
  | unlisted hd hfault =>
    rw [RunAnswer.concluded_result hfault ("objdump error: " ++ h.answered.answer.errors),
      escape?_of_disassembles hc hf hd, complaint?_of_disassembles hc hd,
      if_pos (RunAnswer.not_endsWell_of_result hfault)]
    cases h.answered.answer.unreported? <;> rfl
  | unread hd hran hcode =>
    rw [escape?_of_disassembles hc hf hd, RunAnswer.unreported?_eq_none hran, complaint?_of_disassembles hc hd,
      if_pos fun hw => hcode hw.2, RunAnswer.complaintOr, hran]
    rfl
  | listed hd hl =>
    rw [escape?_of_disassembles hc hf hd, RunAnswer.unreported?_eq_none hl.1, complaint?_of_disassembles hc hd,
      if_neg (not_not_intro hl)]
    rfl

theorem Course.eq_conclusion (hc : t.Course path flags h result runs) : result = t.conclusion path h := by
  cases hc with
  | notFound hc => simp only [conclusion, escape?, complaint?, if_pos hc]
  | noCommand hc hf =>
    have hfound : ¬t.compiler.located? = none := Option.isSome_iff_ne_none.mp hc
    simp only [conclusion, escape?, if_neg hfound, hf, Option.some_or]
  | tools hc hf hb ht => exact ht.concluded_eq hc hf

/-- What a compilation gives: a fault only if one escapes, and else a listing with the compiler's report, or no listing
and what is to be complained of. -/
theorem fst_compile_eq (t : Toolchain) (source : Text) (flags : List Text) (h : Host) :
    ((t.compile source flags).run.run h).1 =
      match t.escape? (h.resolve source) h, t.complaint? (h.resolve source) h with
      | some f, _ => .error f
      | none, some message => .ok ([], message)
      | none, none => .ok (h.answered.answer.output, h.answer.report) := by
  obtain ⟨runs, hcourse, -⟩ := t.course_compile source flags h
  exact hcourse.eq_conclusion

def nullFlagsHost : Host :=
  let h : Host := { tools := [("jai", "/bin/jai")] }
  h.withEntry "/home/u/.jaibolt/config.json" (.file (Utf8.encode "\x7b\"flags\": null\x7d"))

def breaksOff (source : Text) (h : Host) : Bool :=
  match load.run.run h with
  | (.ok t, made) =>
    match ((t.compile source []).run.run made).1 with
    | .error _ => true
    | .ok _ => false
  | (.error _, _) => false

theorem exists_of_breaksOff {source : Text} {h : Host} (hb : breaksOff source h = true) :
    ∃ t made f, load.run.run h = (.ok t, made) ∧ ((t.compile source []).run.run made).1 = .error f := by
  unfold breaksOff at hb
  split at hb
  · split at hb
    · exact ⟨_, _, _, ‹_›, ‹_›⟩
    · cases hb
  · cases hb

/-- The preferences are loaded and the compiler is found, but compiling does not come back with a report. -/
theorem exists_fst_compile_eq_error :
    ∃ t made f, load.run.run nullFlagsHost = (.ok t, made) ∧
      ((t.compile "/work/x.jai" []).run.run made).1 = .error f :=
  exists_of_breaksOff (by decide +kernel)

end Toolchain

end DisasmLens
