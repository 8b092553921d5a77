import DisasmLens.CommandLine.Run
import DisasmLens.Proofs.Footprint
import DisasmLens.Proofs.VersionLine

/-!
# How runs of the program end

A run does what was asked for (`CommandLine.Served`), or fails with the exit code 1 after it has said why
(`CommandLine.Failed`), or refuses its arguments with the exit code 2 — unless a fault is caught by nothing on its way
(`CommandLine.escape?`): one of loading the preferences, of looking the tools up or of asking for the compiler's
version, arguments for the compiler that cannot be told apart, a listing that is not text, or a log file that cannot be
opened.
-/

namespace DisasmLens.CommandLine

def Output.IsMessage : Output → Prop
  | .out text => text ≠ []
  | .err text => text ≠ []
  | .listing _ => False

/-- The run ends with the exit code 1, and messages are all that was written. -/
structure Failed (before : Terminal) (ending : Ending) (after : Terminal) : Prop where
  code : ending = .exit 1
  messages : ∃ os, os ≠ [] ∧ after.output = before.output ++ os ∧ ∀ o ∈ os, o.IsMessage

/-! ### Pieces of a run -/

namespace Command

variable {α β : Type}

def Gives (c : Command α) (before : Terminal) (post : α → Terminal → Prop) : Prop :=
  match c.run.run before with
  | (.ok a, after) => post a after
  | (.error ending, after) => Failed before ending after

theorem run_get (t : Terminal) : (get : Command Terminal).run.run t = (.ok t, t) := rfl

theorem run_exit (code : Nat) (t : Terminal) : (exit code : Command α).run.run t = (.error (.exit code), t) := rfl

theorem run_attempt (a : Attempt α) (t : Terminal) :
    (attempt a).run.run t = (.ok (a.run.run t.host).1, { t with host := (a.run.run t.host).2 }) := rfl

theorem run_require_ok (a : α) (t : Terminal) : (require (.ok a)).run.run t = (.ok a, t) := rfl

theorem run_require_error (f : Fault) (t : Terminal) :
    (require (.error f) : Command α).run.run t = (.error (.fault f), t) := rfl

theorem run_logTo_console (isVerbose : Bool) (t : Terminal) :
    ∃ logging threshold, (logTo .console isVerbose).run.run t =
      (.ok (), { t with logging, host.threshold := threshold }) := ⟨_, _, rfl⟩

theorem run_bind_of_eq_ok {c : Command α} {t t' : Terminal} {a : α} (hc : c.run.run t = (.ok a, t'))
    (f : α → Command β) : (c >>= f).run.run t = (f a).run.run t' := by
  rw [ExceptT.run_bind, StateT.run_bind, hc]
  rfl

theorem run_bind_of_eq_error {c : Command α} {t t' : Terminal} {e : Ending} (hc : c.run.run t = (.error e, t'))
    (f : α → Command β) : (c >>= f).run.run t = (.error e, t') := by
  rw [ExceptT.run_bind, StateT.run_bind, hc]
  rfl

theorem fst_run_bind_of_eq_error {c : Command α} {t : Terminal} {e : Ending} (hc : (c.run.run t).1 = .error e)
    (f : α → Command β) : ((c >>= f).run.run t).1 = .error e := by
  cases hrun : c.run.run t with
  | mk result t' =>
    rw [hrun] at hc
    cases hc
    rw [run_bind_of_eq_error hrun]

theorem run_openForAdditions (path : Text) (h : Host) :
    match h.additionFault? path with
    | some f => (openForAdditions path).run.run h = (.error f, h)
    | none => ∃ files, (openForAdditions path).run.run h = (.ok (), { h with files }) := by
  unfold openForAdditions
  rw [Attempt.run_bind_of_eq_ok (Attempt.run_get h)]
  cases h.additionFault? path with
  | some f => rfl
  | none =>
    dsimp only
    split
    · exact ⟨h.files, rfl⟩
    · exact ⟨_, rfl⟩

theorem run_logTo_file (isVerbose : Bool) (t : Terminal) :
    match t.host.additionFault? logFile with
    | some f => (logTo .file isVerbose).run.run t = (.error (.fault f), t)
    | none => ∃ logging files threshold, (logTo .file isVerbose).run.run t =
        (.ok (), { t with logging, host.files := files, host.threshold := threshold }) := by
  have hopen := run_openForAdditions logFile t.host
  have hlog : (logTo .file isVerbose).run.run t = (do
      require (← attempt (openForAdditions logFile))
      modify fun t => { t with
        logging := some ⟨.file, if isVerbose then .debug else .info⟩
        host.threshold := if isVerbose then .debug else .info } : Command Unit).run.run t := rfl
  rw [hlog, run_bind_of_eq_ok (run_attempt _ t)]
  cases hf : t.host.additionFault? logFile with
  | some f =>
    rw [hf] at hopen
    dsimp only at hopen ⊢
    rw [hopen]
    rfl
  | none =>
    rw [hf] at hopen
    obtain ⟨files, hopen⟩ := hopen
    rw [hopen]
    exact ⟨_, files, _, rfl⟩

theorem Gives.bind {c : Command α} {f : α → Command β} {before : Terminal} {post : β → Terminal → Prop}
    (h : Gives c before fun a t => t.output = before.output ∧ Gives (f a) t post) : Gives (c >>= f) before post := by
  unfold Gives at h ⊢
  cases hc : c.run.run before with
  | mk result t =>
    rw [hc] at h
    cases result with
    | error e =>
      rw [run_bind_of_eq_error hc]
      exact h
    | ok a =>
      obtain ⟨hout, hrest⟩ := h
      rw [run_bind_of_eq_ok hc]
      split
      · rename_i hf
        rw [hf] at hrest
        exact hrest
      · rename_i hf
        rw [hf] at hrest
        obtain ⟨os, hne, hos, hm⟩ := hrest.messages
        exact ⟨hrest.code, os, hne, by rw [hos, hout], hm⟩

theorem Gives.mono {c : Command α} {before : Terminal} {post post' : α → Terminal → Prop} (h : Gives c before post)
    (hp : ∀ a t, post a t → post' a t) : Gives c before post' := by
  unfold Gives at h ⊢
  split
  · rename_i hc
    rw [hc] at h
    exact hp _ _ h
  · rename_i hc
    rw [hc] at h
    exact h

theorem Gives.of_run_eq {c c' : Command α} {before : Terminal} {post : α → Terminal → Prop}
    (hc : c.run.run before = c'.run.run before) (h : Gives c' before post) : Gives c before post := by
  rw [Gives, hc]
  exact h

theorem gives_bind_of_run {c : Command α} {f : α → Command β} {t t' : Terminal} {a : α}
    {post : β → Terminal → Prop} (hc : c.run.run t = (.ok a, t')) (hout : t'.output = t.output)
    (h : Gives (f a) t' post) : Gives (c >>= f) t post := by
  refine .bind ?_
  rw [Gives, hc]
  exact ⟨hout, h⟩

theorem gives_act {a : Action α} {before : Terminal} {post : α → Terminal → Prop}
    (h : post (a.run before.host).1 { before with host := (a.run before.host).2 }) : Gives (act a) before post := h

theorem run_print (lines : List Text) (t : Terminal) :
    (print lines).run.run t = (.ok (), { t with output := t.output ++ lines.map fun l => .out (l ++ ['\n']) }) := by
  induction lines generalizing t with
  | nil =>
    rw [List.map_nil, List.append_nil]
    rfl
  | cons line lines ih =>
    have hwrite : (write (.out (line ++ ['\n']))).run.run t =
        (.ok (), { t with output := t.output ++ [.out (line ++ ['\n'])] }) := rfl
    have hcons : print (line :: lines) = write (.out (line ++ ['\n'])) >>= fun _ => print lines := rfl
    rw [hcons, run_bind_of_eq_ok hwrite, ih, List.append_assoc]
    rfl

theorem run_abort (lines : List Text) (t : Terminal) :
    (abort lines : Command α).run.run t =
      (.error (.exit 1), { t with output := t.output ++ lines.map fun l => .out (l ++ ['\n']) }) := by
  rw [abort, run_bind_of_eq_ok (run_print lines t), run_exit]

theorem run_abort_bind (lines : List Text) (f : α → Command β) (t : Terminal) :
    (abort lines >>= f).run.run t = (abort lines : Command β).run.run t := by
  rw [run_abort]
  exact run_bind_of_eq_error (run_abort lines t) f

theorem gives_abort {lines : List Text} (hl : lines ≠ []) (before : Terminal) (post : α → Terminal → Prop) :
    Gives (abort lines) before post := by
  rw [Gives, run_abort]
  refine ⟨rfl, _, mt List.map_eq_nil_iff.mp hl, rfl, fun o ho => ?_⟩
  obtain ⟨line, -, rfl⟩ := List.mem_map.mp ho
  exact List.append_ne_nil_of_right_ne_nil _ (List.cons_ne_nil _ _)

theorem gives_err {text : Text} (ht : text ≠ []) (before : Terminal) (post : α → Terminal → Prop) :
    Gives (do
      write (.err text)
      exit 1) before post :=
  ⟨rfl, [.err text], List.cons_ne_nil _ _, rfl, List.forall_mem_singleton.mpr ht⟩

end Command

open Command

/-! ### Listings that are there already -/

def listingBytes? (path : Text) (t : Terminal) : Option (List UInt8) :=
  if path = ['-'] then some t.input
  else
    match t.host.entry? path with
    | some (.file bytes) => some bytes
    | _ => none

def unreadable? (path : Text) (t : Terminal) : Option Fault :=
  match (listingBytes? path t).map Utf8.decode with
  | some (.error failure) => some (.encoding failure)
  | _ => none

def listingText (path : Text) (t : Terminal) : Except Fault Text :=
  if path = ['-'] then readText t.input else t.host.text path

theorem run_readListing (path : Text) (t : Terminal) :
    (readListing path).run.run t = (.ok (listingText path t), t) := by
  unfold readListing listingText
  split
  · exact run_bind_of_eq_ok (run_get t) _
  · have hread := run_readFile path t.host
    show (Except.ok ((readFile path).run.run t.host).1, { t with host := ((readFile path).run.run t.host).2 }) = _
    rw [hread]

theorem listingText_cases (path : Text) (t : Terminal) :
    (∃ whole, listingText path t = .ok whole ∧ unreadable? path t = none) ∨
      (∃ f : Fault, f.isSystem = true ∧ listingText path t = .error f ∧ unreadable? path t = none) ∨
      ∃ f : Fault, f.isSystem = false ∧ listingText path t = .error f ∧ unreadable? path t = some f := by
  have hbytes (bytes : List UInt8) (hb : listingBytes? path t = some bytes)
      (ht : listingText path t = readText bytes) :
      (∃ whole, listingText path t = .ok whole ∧ unreadable? path t = none) ∨
        ∃ f : Fault, f.isSystem = false ∧ listingText path t = .error f ∧ unreadable? path t = some f := by
    rw [ht, unreadable?, hb, readText, Option.map_some]
    cases Utf8.decode bytes with
    | ok whole => exact .inl ⟨_, rfl, rfl⟩
    | error failure => exact .inr ⟨_, rfl, rfl, rfl⟩
  by_cases hp : path = ['-']
  · have hinput := hbytes t.input (if_pos hp) (if_pos hp)
    exact hinput.imp_right .inr
  · have htext : listingText path t = t.host.bytes path >>= readText := if_neg hp
    have hentry : listingBytes? path t = match t.host.entry? path with
      | some (.file bytes) => some bytes
      | _ => none := if_neg hp
    -- Without a file there is nothing to decode, and what the system refuses is caught.
    have hrefused {f : Fault} (hf : f.isSystem = true) (hb : t.host.bytes path = .error f)
        (hn : listingBytes? path t = none) :
        ∃ f : Fault, f.isSystem = true ∧ listingText path t = .error f ∧ unreadable? path t = none := by
      refine ⟨f, hf, ?_, ?_⟩
      · rw [htext, hb]
        rfl
      · rw [unreadable?, hn]
        rfl
    cases he : t.host.entry? path with
    | none => exact .inr (.inl (hrefused (f := .missing path) rfl (by rw [Host.bytes, he]) (by rw [hentry, he])))
    | some e =>
      cases e with
      | file bytes =>
        rw [he] at hentry
        refine (hbytes bytes hentry ?_).imp_right .inr
        rw [htext, Host.bytes, he]
        rfl
      | directory =>
        exact .inr (.inl (hrefused (f := .directory path) rfl (by rw [Host.bytes, he]) (by rw [hentry, he])))
      | sealed => exact .inr (.inl (hrefused (f := .denied path) rfl (by rw [Host.bytes, he]) (by rw [hentry, he])))

theorem run_showListing_of_unreadable {path : Text} {t : Terminal} {f : Fault} (h : unreadable? path t = some f)
    (target : Text) : (showListing path target).run.run t = (.error (.fault f), t) := by
  rcases listingText_cases path t with ⟨_, _, hn⟩ | ⟨_, _, _, hn⟩ | ⟨g, hsystem, htext, hg⟩
  · rw [hn] at h
    cases h
  · rw [hn] at h
    cases h
  · cases hg.symm.trans h
    rw [showListing, run_bind_of_eq_ok (run_readListing path t), htext]
    simp only [hsystem]
    rfl

theorem gives_showListing {path : Text} {t : Terminal} (h : unreadable? path t = none) (target : Text) :
    Gives (showListing path target) t fun _ t' => ∃ l, t'.output = t.output ++ [.listing l] := by
  refine gives_bind_of_run (run_readListing path t) rfl ?_
  rcases listingText_cases path t with ⟨whole, htext, -⟩ | ⟨g, hsystem, htext, -⟩ | ⟨g, -, -, hg⟩
  · rw [htext]
    refine .bind (gives_act ⟨rfl, ?_⟩)
    exact ⟨_, rfl⟩
  · rw [htext]
    dsimp only
    rw [if_pos hsystem]
    exact gives_abort (List.cons_ne_nil _ _) t _
  · rw [hg] at h
    cases h

/-! ### Source files -/

theorem gives_openSession (source : Text) (flags : List Text) (t : Terminal) :
    Gives (openSession source flags) t fun _ t' => t'.output = t.output ∧ t'.screenEnd = t.screenEnd := by
  refine .bind (gives_act ⟨rfl, ?_⟩)
  split
  · exact ⟨rfl, rfl⟩
  · exact gives_abort (List.cons_ne_nil _ _) _ _

theorem gives_printOnce (source : Text) (flags : List Text) (t : Terminal) :
    Gives (printOnce source flags) t fun _ t' => ∃ l, t'.output = t.output ++ [.listing l] := by
  refine .bind ((gives_openSession source flags t).mono fun session t₁ ht₁ => ⟨ht₁.1, ?_⟩)
  refine .bind (gives_act ⟨rfl, ?_⟩)
  split
  · exact ⟨_, congrArg (· ++ _) ht₁.1⟩
  · exact gives_err (List.append_ne_nil_of_right_ne_nil _ (List.cons_ne_nil _ _)) _ _

theorem gives_openScreen (source : Text) (flags : List Text) (t : Terminal) :
    Gives (openScreen source flags) t fun _ t' =>
      t'.output = t.output ∧ t'.screen.isSome ∧ ∀ message, t.screenEnd ≠ .failed message := by
  refine .bind ((gives_openSession source flags t).mono fun session t₁ ht₁ => ⟨ht₁.1, ?_⟩)
  have hopen : (modify fun t => { t with screen := some session } : Command Unit).run.run t₁ =
      (.ok (), { t₁ with screen := some session }) := rfl
  refine gives_bind_of_run hopen rfl (gives_bind_of_run (run_get _) rfl ?_)
  rw [← ht₁.1, ← ht₁.2]
  dsimp only
  cases he : t₁.screenEnd with
  | closed => exact ⟨rfl, rfl, fun _ => ScreenEnd.noConfusion⟩
  | interrupted => exact ⟨rfl, rfl, fun _ => ScreenEnd.noConfusion⟩
  | failed message => exact gives_abort (List.cons_ne_nil _ _) _ _

def Terminal.source (t : Terminal) (file : Text) : Text := (Path.absolute t.host.directory file).text

def Terminal.HasSource (t : Terminal) (file : Text) : Prop :=
  t.host.hasEntry (t.source file) = true ∧ Path.isSource (t.source file) = true

instance (t : Terminal) (file : Text) : Decidable (t.HasSource file) := inferInstanceAs (Decidable (_ ∧ _))

theorem run_sourcePath {t : Terminal} {file : Text} (hs : t.HasSource file) :
    (sourcePath (some file)).run.run t = (.ok (t.source file), t) := by
  obtain ⟨he, hs⟩ := hs
  unfold sourcePath
  rw [run_bind_of_eq_ok (run_get t)]
  dsimp only [Terminal.source] at he hs ⊢
  rw [he, hs]
  rfl

theorem run_sourcePath_of_not {t : Terminal} {file : Option Text} (h : ¬∃ f ∈ file, t.HasSource f) :
    ∃ lines, lines ≠ [] ∧ (sourcePath file).run.run t = (abort lines : Command Text).run.run t := by
  cases file with
  | none => exact ⟨_, List.cons_ne_nil _ _, rfl⟩
  | some f =>
    unfold sourcePath
    rw [run_bind_of_eq_ok (run_get t)]
    dsimp only
    cases he : t.host.hasEntry (Path.absolute t.host.directory f).text with
    | false =>
      refine ⟨_, ?_, run_abort_bind _ _ t⟩
      exact List.cons_ne_nil _ _
    | true =>
      have hs : Path.isSource (Path.absolute t.host.directory f).text = false :=
        Bool.eq_false_iff.mpr fun hs => h ⟨f, rfl, he, hs⟩
      rw [hs]
      refine ⟨_, ?_, run_abort_bind _ _ t⟩
      exact List.cons_ne_nil _ _

theorem gives_sourcePath (file : Option Text) (t : Terminal) :
    Gives (sourcePath file) t fun _ t' => t' = t ∧ ∃ f ∈ file, t.HasSource f := by
  by_cases h : ∃ f ∈ file, t.HasSource f
  · obtain ⟨f, rfl, hs⟩ := h
    rw [Gives, run_sourcePath hs]
    exact ⟨rfl, f, rfl, hs⟩
  · obtain ⟨lines, hl, hrun⟩ := run_sourcePath_of_not h
    exact .of_run_eq hrun (gives_abort hl t _)

/-! ### Versions -/

/-- What breaks off asking a compiler for its version. A run that the system refuses does not. -/
def queryFault? (compiler : Tool) (h : Host) : Option Fault :=
  match compiler.located?, h.answers.head?.bind RunAnswer.failure with
  | some _, some (failure, message) => if failure = .system then none else some (.run failure message)
  | _, _ => none

def nameFault? (compiler : Tool) : Option Fault :=
  match compiler.located?, Text.ofRunes (missingLine compiler.name) with
  | none, .error stray => some (.surrogates stray)
  | _, _ => none

def versionFault? (h : Host) : Option Fault :=
  match Settings.load.run.run h with
  | (.error f, _) => some f
  | (.ok s, h) =>
    match Toolchain.found h s with
    | .error f => some f
    | .ok tools => (queryFault? tools.compiler h).or (nameFault? tools.compiler)

theorem fst_version (tools : Toolchain) (h : Host) :
    match queryFault? tools.compiler h with
    | some f => (tools.version.run.run h).1 = .error f
    | none => ∃ line, (tools.version.run.run h).1 = .ok line ∧ (tools.compiler.located? = none → line = none) := by
  have hfailure : h.answers.head?.bind RunAnswer.failure = h.answer.failure := by
    unfold Host.answer
    cases h.answers.head? <;> rfl
  rw [queryFault?, hfailure, Toolchain.fst_version_eq]
  cases tools.compiler.located? with
  | none => exact ⟨_, rfl, fun _ => rfl⟩
  | some path =>
    cases h.answer.failure with
    | none => exact ⟨_, rfl, nofun⟩
    | some failed =>
      obtain ⟨failure, message⟩ := failed
      cases failure with
      | system => exact ⟨_, rfl, nofun⟩
      | _ => exact rfl

theorem exists_text_of_find {h : Host} {name : Json} {tool : Tool} (hf : Tool.find h name = .ok tool)
    (hl : tool.located?.isSome = true) : ∃ t, tool.name = .ofText t := by
  unfold Tool.find Host.which? at hf
  split at hf
  · rename_i s
    cases hf
    cases hs : Text.ofRunes s with
    | ok t =>
      rw [Text.ofRunes_eq_ok_iff.mp hs]
      exact ⟨t, rfl⟩
    | error stray =>
      rw [Tool.located?, hs] at hl
      cases hl
  · split at hf
    · cases hf
      cases hl
    · cases hf

theorem find_of_found {h : Host} {s : Settings} {tools : Toolchain} (hf : Toolchain.found h s = .ok tools) :
    Tool.find h (s.getD Settings.compilerName Settings.defaultCompiler) = .ok tools.compiler := by
  unfold Toolchain.found at hf
  cases hc : Tool.find h (s.getD Settings.compilerName Settings.defaultCompiler) with
  | error f =>
    rw [hc] at hf
    cases hf
  | ok compiler =>
    cases hd : Tool.find h (s.getD Settings.disassemblerName Settings.defaultDisassembler) with
    | error f =>
      rw [hc, hd] at hf
      cases hf
    | ok disassembler =>
      rw [hc, hd] at hf
      cases hf
      rfl

theorem missingLine_ofText (t : Text) : missingLine (.ofText t) = Text.runes ("Compiler '" ++ t ++ "' not found.") := by
  simp only [missingLine, Text.runes, List.map_append]
  rfl

theorem missingLine_cases {h : Host} {s : Settings} {tools : Toolchain} (hf : Toolchain.found h s = .ok tools) :
    match nameFault? tools.compiler with
    | some f => tools.compiler.located? = none ∧
        (Text.ofRunes (missingLine tools.compiler.name)).mapError Fault.surrogates = .error f
    | none => ∃ line, (Text.ofRunes (missingLine tools.compiler.name)).mapError Fault.surrogates = .ok line := by
  unfold nameFault?
  cases hl : tools.compiler.located? with
  | some path =>
    obtain ⟨t, ht⟩ := exists_text_of_find (find_of_found hf) (by rw [hl]; rfl)
    rw [ht, missingLine_ofText, Text.ofRunes_runes]
    exact ⟨_, rfl⟩
  | none =>
    cases Text.ofRunes (missingLine tools.compiler.name) with
    | error stray => exact ⟨rfl, rfl⟩
    | ok line => exact ⟨line, rfl⟩

theorem run_load_of_eq_ok {s : Settings} {h h' : Host} (hs : Settings.load.run.run h = (.ok s, h')) :
    ∃ logs, Toolchain.load.run.run h = (Toolchain.found h' s, { h' with journal.logs := logs }) := by
  obtain ⟨logs, hfound⟩ := Toolchain.run_ofSettings s h'
  exact ⟨logs, (Attempt.run_bind_of_eq_ok hs _).trans hfound⟩

theorem run_load_of_eq_error {f : Fault} {h h' : Host} (hs : Settings.load.run.run h = (.error f, h')) :
    Toolchain.load.run.run h = (.error f, h') :=
  Attempt.run_bind_of_eq_error hs _

theorem run_versionReport {tools : Toolchain} {h : Host} {s : Settings} {t : Terminal} {logs : List LogRecord}
    (hf : Toolchain.found h s = .ok tools) (ht : t.host = { h with journal.logs := logs }) :
    match (queryFault? tools.compiler h).or (nameFault? tools.compiler) with
    | some f => ((versionReport tools).run.run t).1 = .error (.fault f)
    | none => ∃ line t', (versionReport tools).run.run t = (.ok line, t') ∧ t'.output = t.output := by
  have hversion := fst_version tools { h with journal.logs := logs }
  have hmissing := missingLine_cases hf
  -- Finding the tools asks none of them, so the answer to the query is still the next one.
  have hquery : queryFault? tools.compiler { h with journal.logs := logs } = queryFault? tools.compiler h := rfl
  rw [hquery] at hversion
  unfold versionReport
  rw [run_bind_of_eq_ok (run_attempt tools.version t), ht]
  cases hq : queryFault? tools.compiler h with
  | some f =>
    rw [hq] at hversion
    rw [hversion, run_bind_of_eq_error (run_require_error f _)]
    rfl
  | none =>
    rw [hq] at hversion
    obtain ⟨line, hline, hnone⟩ := hversion
    rw [hline, run_bind_of_eq_ok (run_require_ok line _), Option.none_or]
    cases hn : nameFault? tools.compiler with
    | some f =>
      rw [hn] at hmissing
      rw [hnone hmissing.1]
      dsimp only
      rw [hmissing.2, run_require_error]
    | none =>
      rw [hn] at hmissing
      obtain ⟨missing, hmissing⟩ := hmissing
      cases line with
      | some line => exact ⟨line, _, rfl, rfl⟩
      | none =>
        dsimp only
        rw [hmissing]
        exact ⟨missing, _, rfl, rfl⟩

theorem run_showVersions (t : Terminal) :
    match versionFault? t.host with
    | some f => (showVersions.run.run t).1 = .error (.fault f)
    | none => ∃ line t', showVersions.run.run t = (.ok (), t') ∧
      t'.output = t.output ++ [.out (programName ++ " " ++ programVersion ++ ['\n']), .out (line ++ ['\n'])] := by
  unfold showVersions versionFault?
  rw [run_bind_of_eq_ok (run_print _ t), run_bind_of_eq_ok (run_attempt Toolchain.load _)]
  dsimp only
  cases hs : Settings.load.run.run t.host with
  | mk loaded h =>
    cases loaded with
    | error f => rw [run_load_of_eq_error hs, run_bind_of_eq_error (run_require_error f _)]
    | ok s =>
      obtain ⟨logs, hload⟩ := run_load_of_eq_ok hs
      rw [hload]
      dsimp only
      cases hfound : Toolchain.found h s with
      | error f => rw [run_bind_of_eq_error (run_require_error f _)]
      | ok tools =>
        rw [run_bind_of_eq_ok (run_require_ok tools _)]
        dsimp only
        generalize ht₁ : ({ t with host := _, output := _ } : Terminal) = t₁
        have hreport := run_versionReport (t := t₁) hfound (by rw [← ht₁])
        cases hf : (queryFault? tools.compiler h).or (nameFault? tools.compiler) with
        | some f =>
          rw [hf] at hreport
          exact fst_run_bind_of_eq_error hreport _
        | none =>
          rw [hf] at hreport
          obtain ⟨line, t₂, hline, hout⟩ := hreport
          refine ⟨line, _, (run_bind_of_eq_ok hline _).trans (run_print [line] t₂), ?_⟩
          rw [hout, ← ht₁, List.append_assoc]
          rfl

/-! ### Whole runs -/

def logFault? (file : Text) (t : Terminal) : Option Fault :=
  if t.HasSource file then t.host.additionFault? logFile else none

/-- The fault that is caught by nothing on its way. -/
def escape? (r : Request) (t : Terminal) : Option Fault :=
  if r.showsVersion then versionFault? t.host
  else
    match r.words, Request.given? r.file, Request.given? r.dump with
    | .error f, _, _ => some f
    | .ok _, none, _ => none
    | .ok _, some _, some path => unreadable? path t
    | .ok _, some file, none => if r.printsOnce then none else logFault? file t

/-- What was asked for is done: the versions are shown, a listing is written, or the screen was opened and left by the
user. -/
def Served (r : Request) (before after : Terminal) : Prop :=
  if r.showsVersion then
    ∃ line, after.output =
      before.output ++ [.out (programName ++ " " ++ programVersion ++ ['\n']), .out (line ++ ['\n'])]
  else if (Request.given? r.dump).isSome ∨ r.printsOnce then ∃ l, after.output = before.output ++ [.listing l]
  else after.output = before.output ∧ after.screen.isSome ∧ ∀ message, before.screenEnd ≠ .failed message

/-! ### What is served -/

section serve

variable {r : Request} {flags : List Text} {path target : Text} {t : Terminal}

theorem run_serve_versions (hv : r.showsVersion = true) (t : Terminal) :
    (serve r).run.run t = (do showVersions; exit 0 : Command Unit).run.run t := by
  rw [serve, if_pos hv]
  cases hrun : showVersions.run.run t with
  | mk ending t' =>
    cases ending with
    | error e => rw [run_bind_of_eq_error hrun, run_bind_of_eq_error hrun]
    | ok _ => rw [run_bind_of_eq_ok hrun, run_bind_of_eq_ok hrun, run_bind_of_eq_error (run_exit 0 t'), run_exit]

theorem run_serve_of_words_eq_error {f : Fault} (hv : r.showsVersion = false) (hw : r.words = .error f)
    (t : Terminal) : (serve r).run.run t = (.error (.fault f), t) := by
  rw [serve, if_neg (Bool.eq_false_iff.mp hv), hw, run_bind_of_eq_error (run_require_error f t)]

theorem run_serve_dump (hv : r.showsVersion = false) (hw : r.words = .ok flags)
    (hd : Request.given? r.dump = some path) (hf : Request.given? r.file = some target) (t : Terminal) :
    (serve r).run.run t = (do logTo .console r.isVerbose; showListing path target : Command Unit).run.run t := by
  rw [serve, if_neg (Bool.eq_false_iff.mp hv), hw, run_bind_of_eq_ok (run_require_ok flags t), hd, hf]

theorem run_serve_dump_of_file_eq_none (hv : r.showsVersion = false) (hw : r.words = .ok flags)
    (hd : Request.given? r.dump = some path) (hf : Request.given? r.file = none) (t : Terminal) :
    (serve r).run.run t = (do
      logTo .console r.isVerbose
      abort ["Error: --dump needs the source path to keep.",
        "Usage: jaibolt --dump objdump.txt <path/to/file.jai>"] : Command Unit).run.run t := by
  rw [serve, if_neg (Bool.eq_false_iff.mp hv), hw, run_bind_of_eq_ok (run_require_ok flags t), hd, hf]

theorem run_serve_source (hv : r.showsVersion = false) (hw : r.words = .ok flags)
    (hd : Request.given? r.dump = none) (t : Terminal) :
    (serve r).run.run t = (do
      let source ← sourcePath (Request.given? r.file)
      logTo (if r.printsOnce then .console else .file) r.isVerbose
      if r.printsOnce then printOnce source flags else openScreen source flags : Command Unit).run.run t := by
  rw [serve, if_neg (Bool.eq_false_iff.mp hv), hw, run_bind_of_eq_ok (run_require_ok flags t), hd]

theorem run_serve_of_showsVersion (hv : r.showsVersion = true) (he : escape? r t = none) :
    ∃ t', (serve r).run.run t = (.error (.exit 0), t') ∧ Served r t t' := by
  have hversions := run_showVersions t
  rw [escape?, if_pos hv] at he
  rw [he] at hversions
  obtain ⟨line, t', hrun, hout⟩ := hversions
  rw [run_serve_versions hv, run_bind_of_eq_ok hrun, run_exit]
  refine ⟨t', rfl, ?_⟩
  rw [Served, if_pos hv]
  exact ⟨line, hout⟩

theorem fst_serve_dump_of_unreadable {f : Fault} (hv : r.showsVersion = false) (hw : r.words = .ok flags)
    (hd : Request.given? r.dump = some path) (hf : Request.given? r.file = some target)
    (hu : unreadable? path t = some f) : ((serve r).run.run t).1 = .error (.fault f) := by
  obtain ⟨logging, threshold, hlog⟩ := run_logTo_console r.isVerbose t
  -- Setting up the journal changes nothing that a listing is read from.
  have hlater : unreadable? path { t with logging, host.threshold := threshold } = some f := hu
  rw [run_serve_dump hv hw hd hf, run_bind_of_eq_ok hlog, run_showListing_of_unreadable hlater target]

theorem fst_serve_source_of_logFault {f : Fault} {file : Text} (hv : r.showsVersion = false) (hw : r.words = .ok flags)
    (hd : Request.given? r.dump = none) (hf : Request.given? r.file = some file) (hp : r.printsOnce = false)
    (hl : logFault? file t = some f) : ((serve r).run.run t).1 = .error (.fault f) := by
  unfold logFault? at hl
  split at hl
  · rename_i hs
    have hlog := run_logTo_file r.isVerbose t
    rw [hl] at hlog
    rw [run_serve_source hv hw hd, hf, run_bind_of_eq_ok (run_sourcePath hs), hp, if_neg Bool.false_ne_true,
      run_bind_of_eq_error hlog]
  · cases hl

theorem fst_serve_of_escape {f : Fault} (he : escape? r t = some f) :
    ((serve r).run.run t).1 = .error (.fault f) := by
  unfold escape? at he
  cases hv : r.showsVersion with
  | true =>
    rw [if_pos hv] at he
    have hversions := run_showVersions t
    rw [he] at hversions
    rw [run_serve_versions hv, fst_run_bind_of_eq_error hversions]
  | false =>
    rw [if_neg (Bool.eq_false_iff.mp hv)] at he
    cases hw : r.words with
    | error g =>
      rw [hw] at he
      cases he
      rw [run_serve_of_words_eq_error hv hw]
    | ok flags =>
      cases hf : Request.given? r.file with
      | none =>
        rw [hw, hf] at he
        cases he
      | some file =>
        cases hd : Request.given? r.dump with
        | some path =>
          rw [hw, hf, hd] at he
          exact fst_serve_dump_of_unreadable hv hw hd hf he
        | none =>
          rw [hw, hf, hd] at he
          dsimp only at he
          cases hp : r.printsOnce with
          | true =>
            rw [if_pos hp] at he
            cases he
          | false =>
            rw [if_neg (Bool.eq_false_iff.mp hp)] at he
            exact fst_serve_source_of_logFault hv hw hd hf hp he

theorem gives_serve_dump (hv : r.showsVersion = false) (hw : r.words = .ok flags)
    (hd : Request.given? r.dump = some path)
    (hu : ∀ target, Request.given? r.file = some target → unreadable? path t = none) :
    Gives (serve r) t fun _ t' => Served r t t' := by
  obtain ⟨logging, threshold, hlog⟩ := run_logTo_console r.isVerbose t
  cases hf : Request.given? r.file with
  | none =>
    refine .of_run_eq (run_serve_dump_of_file_eq_none hv hw hd hf t) (gives_bind_of_run hlog rfl ?_)
    exact gives_abort (List.cons_ne_nil _ _) _ _
  | some target =>
    have hlater : unreadable? path { t with logging, host.threshold := threshold } = none := hu target hf
    have hasked : (Request.given? r.dump).isSome = true ∨ r.printsOnce = true := .inl (by rw [hd]; rfl)
    refine .of_run_eq (run_serve_dump hv hw hd hf t) (gives_bind_of_run hlog rfl ?_)
    refine (gives_showListing hlater target).mono fun _ t' ht' => ?_
    rw [Served, if_neg (Bool.eq_false_iff.mp hv), if_pos hasked]
    exact ht'

theorem gives_serve_source (hv : r.showsVersion = false) (hw : r.words = .ok flags) (hd : Request.given? r.dump = none)
    (hl : ∀ file, Request.given? r.file = some file → r.printsOnce = false → logFault? file t = none) :
    Gives (serve r) t fun _ t' => Served r t t' := by
  refine .of_run_eq (run_serve_source hv hw hd t) ?_
  refine .bind ((gives_sourcePath (Request.given? r.file) t).mono fun source t₁ ht₁ => ⟨congrArg _ ht₁.1, ?_⟩)
  obtain ⟨rfl, file, hf, hs⟩ := ht₁
  cases hp : r.printsOnce with
  | true =>
    obtain ⟨logging, threshold, hlog⟩ := run_logTo_console r.isVerbose t₁
    refine gives_bind_of_run hlog rfl ((gives_printOnce source flags _).mono fun _ t' ht' => ?_)
    rw [Served, if_neg (Bool.eq_false_iff.mp hv), if_pos (.inr hp)]
    exact ht'
  | false =>
    have hasked : ¬((Request.given? r.dump).isSome = true ∨ r.printsOnce = true) := by
      rw [hd, hp]
      exact not_or.mpr ⟨Bool.false_ne_true, Bool.false_ne_true⟩
    have hlog := run_logTo_file r.isVerbose t₁
    have hopened := hl file hf hp
    rw [logFault?, if_pos hs] at hopened
    rw [hopened] at hlog
    obtain ⟨logging, files, threshold, hlog⟩ := hlog
    refine gives_bind_of_run hlog rfl ((gives_openScreen source flags _).mono fun _ t' ht' => ?_)
    rw [Served, if_neg (Bool.eq_false_iff.mp hv), if_neg hasked]
    exact ht'

theorem gives_serve (hv : r.showsVersion = false) (he : escape? r t = none) :
    Gives (serve r) t fun _ t' => Served r t t' := by
  rw [escape?, if_neg (Bool.eq_false_iff.mp hv)] at he
  cases hw : r.words with
  | error g =>
    rw [hw] at he
    cases he
  | ok flags =>
    rw [hw] at he
    cases hd : Request.given? r.dump with
    | some path =>
      refine gives_serve_dump hv hw hd fun target hf => ?_
      rw [hf, hd] at he
      exact he
    | none =>
      refine gives_serve_source hv hw hd fun file hf hp => ?_
      rw [hf, hd, hp] at he
      exact he

end serve

def Terminal.started (t : Terminal) : Terminal := { t with host.threshold := .warning }

theorem run_eq (arguments : List Text) (t : Terminal) :
    run arguments t =
      match (command arguments).run.run t.started with
      | (.ok _, t) => (.exit 0, t)
      | (.error ending, t) => (ending, t) := rfl

theorem run_eq_of_request {arguments : List Text} {r : Request} (hr : Request.ofArguments arguments = .ok r)
    (t : Terminal) :
    run arguments t =
      match (serve r).run.run t.started with
      | (.ok _, t) => (.exit 0, t)
      | (.error ending, t) => (ending, t) := by
  rw [run_eq, command, hr]

theorem snd_run_of_request {arguments : List Text} {r : Request} (hr : Request.ofArguments arguments = .ok r)
    (t : Terminal) : (run arguments t).2 = ((serve r).run.run t.started).2 := by
  rw [run_eq_of_request hr]
  split
  · rename_i hs
    rw [hs]
  · rename_i hs
    rw [hs]

theorem run_of_usage {arguments : List Text} {e : UsageError} (hr : Request.ofArguments arguments = .error (.usage e))
    (t : Terminal) : run arguments t = (.exit 2, { t.started with output := t.output ++ [.err e.report] }) := by
  rw [run_eq, command, hr]
  rfl

/-- Every run ends with an exit code, unless a fault escapes. The code is 2 for arguments that are not understood, and
otherwise 0 or 1 by whether what was asked for is done. -/
theorem ending_of_run (arguments : List Text) (t : Terminal) :
    match Request.ofArguments arguments with
    | .error .help => (run arguments t).1 = .exit 0
    | .error (.usage e) => (run arguments t).1 = .exit 2 ∧ (run arguments t).2.output = t.output ++ [.err e.report]
    | .ok r =>
      match escape? r t.started with
      | some f => (run arguments t).1 = .fault f
      | none =>
        ((run arguments t).1 = .exit 0 ∧ Served r t (run arguments t).2) ∨
          Failed t (run arguments t).1 (run arguments t).2 := by
  have hrun := run_eq arguments t
  unfold command at hrun
  cases hr : Request.ofArguments arguments with
  | error stop =>
    rw [hr] at hrun
    cases stop with
    | help => exact congrArg Prod.fst hrun
    | usage e => exact ⟨congrArg Prod.fst hrun, congrArg (fun p => p.2.output) hrun⟩
  | ok r =>
    rw [hr] at hrun
    dsimp only at hrun ⊢
    cases hs : (serve r).run.run t.started with
    | mk result t' =>
      rw [hs] at hrun
      rw [hrun]
      split
      · rename_i f he
        have hfault := fst_serve_of_escape he
        rw [hs] at hfault
        dsimp only at hfault
        rw [hfault]
      · rename_i he
        by_cases hv : r.showsVersion = true
        · obtain ⟨t'', hs', hserved⟩ := run_serve_of_showsVersion hv he
          cases hs.symm.trans hs'
          exact .inl ⟨rfl, hserved⟩
        · have hgives := gives_serve (Bool.eq_false_iff.mpr hv) he
          rw [Gives, hs] at hgives
          cases result with
          | ok _ => exact .inl ⟨rfl, hgives⟩
          | error ending => exact .inr ⟨hgives.code, hgives.messages⟩

/-- An open quote in the compiler's arguments is not caught. -/
theorem exists_run_eq_fault :
    ∃ (arguments : List Text) (t : Terminal) (f : Fault), (run arguments t).1 = .fault f :=
  ⟨["--flags=\"", "--print", "/work/x.jai"],
    { host := Host.withEntry (Host.withOwnDirectories {}) "/work/x.jai" (.file []) }, .words .openQuote, by decide +kernel⟩

end DisasmLens.CommandLine
