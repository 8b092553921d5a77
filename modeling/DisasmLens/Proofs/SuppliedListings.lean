import DisasmLens.Proofs.CompilerArguments

/-!
# Listings from a build, a file and the input

A listing that a build made and that was printed is printed alike when it is read from a file or from the input
(`CommandLine.shows_of_prints`). On the command line a file's path has to be taken for a value: it is not if it looks
like an option, unless it is attached.
-/

namespace DisasmLens

/-! ### The listing of a build -/

theorem Host.hidesLogs_answers : HidesLogs answers := fun _ _ => rfl

theorem Host.hidesFiles_answers : HidesFiles answers := fun _ _ => rfl

theorem Host.answer_answered_congr {g h : Host} (ha : g.answers = h.answers) :
    g.answered.answer = h.answered.answer := by
  unfold answered answer
  dsimp only
  rw [ha]

theorem Session.answers_of_load {source : Text} {r : Except Fault Session} {h made : Host}
    (hl : (load source).run.run h = (r, made)) : made.answers = h.answers :=
  (leaves_load Host.hidesFiles_answers Host.hidesLogs_answers source).view_eq hl

theorem Toolchain.eq_output_of_compile {t : Toolchain} {source whole report : Text} {flags : List Text} {h : Host}
    (hc : ((t.compile source flags).run.run h).1 = .ok (whole, report)) (hw : whole ≠ []) :
    whole = h.answered.answer.output := by
  obtain ⟨runs, hcourse, -⟩ := t.course_compile source flags h
  have hresult := hcourse.result_eq
  rw [hc] at hresult
  split at hresult
  · exact congrArg Prod.fst (Except.ok.inj hresult)
  · exact absurd (hresult whole report rfl) hw

theorem Session.eq_output_of_outcome {s : Session} {h : Host} {code whole report : Text}
    {diagnostics : List Diagnostic} (ho : s.outcome h = .complete code whole report diagnostics) (hw : whole ≠ []) :
    whole = h.answered.answer.output := by
  unfold outcome at ho
  split at ho
  · cases ho
  · rename_i hread
    rw [run_readFile] at hread
    obtain rfl := congrArg Prod.snd hread
    split at ho
    · cases ho
    · rename_i hcompiled
      split at ho
      · cases ho
      · cases ho
        exact Toolchain.eq_output_of_compile (congrArg Prod.fst hcompiled) hw

/-- What a printable refresh prints is the part of the disassembler's output that the source file contributed. -/
theorem Session.eq_retain_of_printable? {s : Session} {h : Host} {target listing : Text}
    (hp : (s.refreshOn h).outcome.printable? target = some listing) :
    listing = Listing.retain target h.answered.answer.output := by
  have hanswers : (s.refreshOn h).host.answered.answer = h.answered.answer :=
    Host.answer_answered_congr (s.leaves_announce Host.hidesLogs_answers h)
  cases ho : (s.refreshOn h).outcome with
  | complete code whole report diagnostics =>
    rw [ho, Outcome.printable?] at hp
    split at hp
    · rename_i hshown
      rw [← hanswers, ← eq_output_of_outcome ho hshown.1]
      exact (Option.some.inj hp).symm
    · cases hp
  | _ =>
    rw [ho] at hp
    cases hp

namespace CommandLine

open Command

/-- The run ends well, and a listing is all that it writes. -/
def Shows (arguments : List Text) (t : Terminal) (listing : Styled) : Prop :=
  (run arguments t).1 = .exit 0 ∧ (run arguments t).2.output = t.output ++ [.listing listing]

variable {arguments flags : List Text} {t : Terminal} {r : Request} {file : Text}

theorem shows_of_exit (hr : Request.ofArguments arguments = .ok r) (hp : r.Prints file flags)
    (hn : t.source file = file) (he : (run arguments t).1 = .exit 0) :
    Shows arguments t (Markup.listing (Listing.retain file t.host.answered.answer.output)) := by
  rcases prints_cases hr hp t with hfailed | ⟨hentry, hsource, s, made, hl⟩
  · rw [hfailed.1] at he
    cases he
  have hrun := run_eq_printed hr hp hentry hsource hl
  obtain ⟨time, hbuilt⟩ := Session.build_refresh { s with flags, isSubscribed := false } made
  have hshown := congrArg Build.shown? hbuilt
  rw [Session.shown?_update] at hshown
  dsimp only at hrun hshown
  have htarget : s.build.source = file := by rw [Session.build_load hl, hn]
  have hkept := Session.answers_of_load hl
  have hanswers : made.answered.answer = t.host.answered.answer := Host.answer_answered_congr hkept
  rw [hrun] at he
  -- Only a build that is shown ends with the code 0.
  let opened : Session := { s with flags, isSubscribed := false }
  cases hprintable : (opened.refreshOn made).outcome.printable? s.build.source with
  | none =>
    rw [hshown, hprintable] at he
    cases he
  | some listing =>
    have hlisting := Session.eq_retain_of_printable? hprintable
    rw [htarget, hanswers] at hlisting
    rw [hprintable] at hshown
    rw [Shows, hrun, printed, hshown, hlisting]
    exact ⟨rfl, rfl⟩

/-! ### Filtering a listing -/

structure Request.Filters (r : Request) (path target : Text) (flags : List Text) : Prop where
  showsVersion : r.showsVersion = false
  dump : given? r.dump = some path
  file : given? r.file = some target
  words : r.words = .ok flags

theorem run_showListing_of_text {path whole : Text} {t : Terminal} (hw : listingText path t = .ok whole)
    (target : Text) :
    ∃ host, (showListing path target).run.run t =
      (.ok (), { t with host, output := t.output ++ [.listing (Markup.listing (Listing.retain target whole))] }) := by
  have hprocessed := Session.fst_processLogged target whole t.host
  have hact : (act (Listing.processLogged target whole)).run.run t =
      (.ok (Listing.process target whole), { t with host := ((Listing.processLogged target whole).run t.host).2 }) := by
    rw [← hprocessed]
    rfl
  unfold showListing
  rw [run_bind_of_eq_ok (run_readListing path t), hw]
  dsimp only
  rw [run_bind_of_eq_ok hact]
  exact ⟨_, rfl⟩

theorem shows_of_filters {path target whole : Text} (hr : Request.ofArguments arguments = .ok r)
    (hf : r.Filters path target flags) (hw : listingText path t = .ok whole) :
    Shows arguments t (Markup.listing (Listing.retain target whole)) := by
  have hlogged : listingText path (t.logged r.isVerbose) = .ok whole := hw
  have hlog : (logTo .console r.isVerbose).run.run t.started = (.ok (), t.logged r.isVerbose) := rfl
  obtain ⟨host, hshown⟩ := run_showListing_of_text hlogged target
  have hserve : (serve r).run.run t.started = (.ok (), { t.logged r.isVerbose with
      host, output := t.output ++ [.listing (Markup.listing (Listing.retain target whole))] }) := by
    rw [run_serve_dump hf.showsVersion hf.words hf.dump hf.file, run_bind_of_eq_ok hlog]
    exact hshown
  rw [Shows, run_eq_of_request hr, hserve]
  exact ⟨rfl, rfl⟩

/-! ### Reading the arguments -/

/-- The argument is a word by its looks: it starts with no hyphen, or is a lone one, or it cannot stand for an option
and is a negative number or has a space in it. -/
def Item.IsWord (argument : Text) : Prop :=
  argument.head? ≠ some '-' ∨ argument = ['-'] ∨
    Switch.named? (splitValue argument).1 = none ∧ candidates argument = [] ∧
      (isNegativeNumber argument = true ∨ ' ' ∈ argument)

instance : DecidablePred Item.IsWord := fun _ => inferInstanceAs (Decidable (_ ∨ _ ∨ _))

theorem Item.ofArgument_eq_word_iff {argument w : Text} :
    ofArgument argument = .ok (.word w) ↔ w = argument ∧ IsWord argument := by
  unfold ofArgument IsWord
  by_cases hbare : argument.head? ≠ some '-' ∨ argument = ['-']
  · rw [if_pos hbare]
    simp only [Except.ok.injEq, Item.word.injEq]
    exact ⟨fun h => ⟨h.symm, or_assoc.mp (.inl hbare)⟩, fun h => h.1.symm⟩
  rw [if_neg hbare]
  rw [not_or] at hbare
  simp only [hbare.1, hbare.2, false_or]
  -- An option that is named, or several that are meant, is no word.
  cases Switch.named? (splitValue argument).1 with
  | some option => simp
  | none =>
    rcases candidates argument with _ | ⟨candidate, _ | ⟨next, more⟩⟩
    · dsimp only
      split
      · rename_i hlooks
        simp only [Except.ok.injEq, Item.word.injEq, hlooks, and_true]
        exact eq_comm
      · rename_i hlooks
        simp [hlooks]
    · simp
    · simp

/-- The argument that asks for a listing to be filtered. The path of the listing comes next, or is attached. -/
def dumpArgument : Text := "--dump"

def attachedDumpArgument (path : Text) : Text := dumpArgument ++ '=' :: path

theorem Item.ofArgument_dump : ofArgument dumpArgument = .ok (.switch (.slot .dump) false none) := rfl

theorem Item.ofArgument_attachedDump (path : Text) :
    ofArgument (attachedDumpArgument path) = .ok (.switch (.slot .dump) false (some path)) := rfl

variable {path target : Text}

theorem Item.IsWord.ne_divider {argument : Text} (h : IsWord argument) : dividerText ≠ argument := by
  rintro rfl
  exact absurd h (by decide)

theorem ofArguments_dump (hp : Item.IsWord path) (ht : target.head? ≠ some '-') :
    Request.ofArguments [dumpArgument, path, target] = .ok { file := some target, dump := some path } := by
  have hdivider : dividerText ∉ [dumpArgument, path, target] := by
    have hdump : dividerText ≠ dumpArgument := by decide
    have htarget := Item.IsWord.ne_divider (.inl ht)
    simp [hdump, hp.ne_divider, htarget]
  have hread : Request.ofArguments [dumpArgument, path, target] =
      .ok { file := some target, dump := if path = dividerText then none else some path } := by
    rw [Request.ofArguments, Item.ofArguments_eq_mapM hdivider]
    simp only [List.mapM_cons, List.mapM_nil, Item.ofArgument_dump, Item.ofArgument_word ht]
    rw [Item.ofArgument_eq_word_iff.mpr ⟨rfl, hp⟩]
    rfl
  rw [hread, if_neg hp.ne_divider.symm]

theorem Item.ofArguments_cons_of_ne {argument : Text} (h : argument ≠ dividerText) (rest : List Text) :
    ofArguments (argument :: rest) = (do
      let item ← ofArgument argument
      let items ← ofArguments rest
      return item :: items) := by
  rw [ofArguments, if_neg h]

theorem ofArguments_dump_of_not (hp : ¬Item.IsWord path) (target : Text) :
    ∃ e, Request.ofArguments [dumpArgument, path, target] = .error (.usage e) := by
  by_cases hd : path = dividerText
  · rw [hd]
    exact ⟨.missingValue .dump, rfl⟩
  rw [Request.ofArguments, Item.ofArguments_cons_of_ne (by decide), Item.ofArgument_dump,
    Item.ofArguments_cons_of_ne hd]
  cases hitem : Item.ofArgument path with
  | error e => exact ⟨e, rfl⟩
  | ok item =>
    cases Item.ofArguments [target] with
    | error e => exact ⟨e, rfl⟩
    | ok items =>
      -- The value of the option is still to come, and only a word can be it.
      cases item with
      | word w => exact absurd (Item.ofArgument_eq_word_iff.mp hitem).2 hp
      | _ => exact ⟨.missingValue .dump, rfl⟩

theorem ofArguments_attachedDump (hp : path ≠ dividerText) (ht : target.head? ≠ some '-') :
    Request.ofArguments [attachedDumpArgument path, target] = .ok { file := some target, dump := some path } := by
  have hdivider : dividerText ∉ [attachedDumpArgument path, target] := by
    have hdump : dividerText ≠ attachedDumpArgument path := nofun
    have htarget := Item.IsWord.ne_divider (.inl ht)
    simp [hdump, htarget]
  have hread : Request.ofArguments [attachedDumpArgument path, target] =
      .ok { file := some target, dump := if path = dividerText then none else some path } := by
    rw [Request.ofArguments, Item.ofArguments_eq_mapM hdivider]
    simp only [List.mapM_cons, List.mapM_nil, Item.ofArgument_attachedDump, Item.ofArgument_word ht]
    rfl
  rw [hread, if_neg hp]

/-! ### A listing that is there already -/

theorem readText_encode {whole : Text} (hw : '\r' ∉ whole) : readText (Utf8.encode whole) = .ok whole := by
  rw [readText, Utf8.decode_encode]
  exact congrArg Except.ok (Text.normalizeNewlines_eq_self hw)

theorem Request.filters_dump (hp : path ≠ []) (ht : target ≠ []) :
    Request.Filters { file := some target, dump := some path } path target [] where
  showsVersion := rfl
  dump := by rw [given?, Option.filter_some, if_pos (decide_eq_true hp)]
  file := by rw [given?, Option.filter_some, if_pos (decide_eq_true ht)]
  words := rfl

/-- The path leads to a file with a listing. A hyphen stands for the input, and not for a file. -/
structure Terminal.Supplies (t : Terminal) (path whole : Text) : Prop where
  ne_nil : path ≠ []
  ne_hyphen : path ≠ ['-']
  entry? : t.host.entry? path = some (.file (Utf8.encode whole))

theorem Terminal.Supplies.listingText_eq {whole : Text} (hs : t.Supplies path whole) (hw : '\r' ∉ whole) :
    listingText path t = .ok whole := by
  rw [listingText, if_neg hs.ne_hyphen, Host.text, Host.bytes, hs.entry?]
  exact readText_encode hw

/-- A listing that was printed is printed alike from the input, and from a file. The path of the file may be attached
to the option unless it is the divider, and may stand behind it exactly if it is a word by its looks. -/
theorem shows_of_prints {whole : Text} (hr : Request.ofArguments arguments = .ok r) (hp : r.Prints file flags)
    (hn : t.source file = file) (he : (run arguments t).1 = .exit 0)
    (hl : t.host.answered.answer.output = whole) (hw : '\r' ∉ whole) :
    let listing := Markup.listing (Listing.retain file whole)
    Shows arguments t listing ∧
      ∀ u : Terminal,
        (u.input = Utf8.encode whole → Shows [dumpArgument, ['-'], file] u listing) ∧
        ∀ path, u.Supplies path whole →
          (path ≠ dividerText → Shows [attachedDumpArgument path, file] u listing) ∧
            if Item.IsWord path then Shows [dumpArgument, path, file] u listing
            else (run [dumpArgument, path, file] u).1 = .exit 2 := by
  intro listing
  -- The target is absolute, so it is a word by its looks wherever it stands.
  have hslash : file.head? = some '/' := by
    rw [← hn]
    exact of_decide_eq_true (Path.isAbsolute_text _)
  have hword : file.head? ≠ some '-' := by
    rw [hslash]
    exact nofun
  have hne : file ≠ [] := by
    rintro rfl
    cases hslash
  have hprinted := shows_of_exit hr hp hn he
  rw [hl] at hprinted
  refine ⟨hprinted, fun u => ⟨fun hu => ?_, fun path hs => ⟨fun hd => ?_, ?_⟩⟩⟩
  · have hread : listingText ['-'] u = .ok whole := by
      rw [listingText, if_pos rfl, hu, readText_encode hw]
    exact shows_of_filters (ofArguments_dump (.inr (.inl rfl)) hword) (Request.filters_dump nofun hne) hread
  · exact shows_of_filters (ofArguments_attachedDump hd hword) (Request.filters_dump hs.ne_nil hne)
      (hs.listingText_eq hw)
  · split
    · rename_i hi
      exact shows_of_filters (ofArguments_dump hi hword) (Request.filters_dump hs.ne_nil hne) (hs.listingText_eq hw)
    · rename_i hi
      obtain ⟨e, hrequest⟩ := ofArguments_dump_of_not hi file
      rw [run_of_usage hrequest]

def wholeListing : Text := "main():\n/work/x.jai:1\n  1: push\n  2: ret\n/lib/r.jai:7\n  3: nop\n"

/-- A machine on which the listing of a source file is in the input too, and in a file whose name starts with a
hyphen. -/
def hyphenTerminal : Terminal where
  host := Session.listingHost.withEntry "/work/-r.txt" (.file (Utf8.encode wholeListing))
  input := Utf8.encode wholeListing

theorem supplies_hyphenTerminal : hyphenTerminal.Supplies "-r.txt" wholeListing :=
  ⟨by decide, by decide, by decide +kernel⟩

theorem output_hyphenTerminal : hyphenTerminal.host.answered.answer.output = wholeListing := by decide +kernel

theorem fst_run_hyphenTerminal : (run ["--print", "/work/x.jai"] hyphenTerminal).1 = .exit 0 := by decide +kernel

theorem shows_of_prints_hyphen :
    let printed := Markup.listing "main():\n/work/x.jai:1\n  1: push\n  2: ret\n"
    hyphenTerminal.host.answered.answer.output = wholeListing ∧ hyphenTerminal.Supplies "-r.txt" wholeListing ∧
      Shows ["--print", "/work/x.jai"] hyphenTerminal printed ∧
      Shows ["--dump", "-", "/work/x.jai"] hyphenTerminal printed ∧
      Shows ["--dump", "./-r.txt", "/work/x.jai"] hyphenTerminal printed ∧
      Shows ["--dump=-r.txt", "/work/x.jai"] hyphenTerminal printed := by
  have hr : Request.ofArguments ["--print", "/work/x.jai"] =
      .ok { file := some "/work/x.jai", printsOnce := true } := rfl
  have hp : Request.Prints { file := some "/work/x.jai", printsOnce := true } "/work/x.jai" [] :=
    ⟨rfl, rfl, rfl, rfl, rfl⟩
  have hretain : Listing.retain "/work/x.jai" wholeListing = "main():\n/work/x.jai:1\n  1: push\n  2: ret\n" := by
    decide +kernel
  have hshown := shows_of_prints (t := hyphenTerminal) hr hp (by decide +kernel) fst_run_hyphenTerminal
    output_hyphenTerminal (by decide)
  rw [hretain] at hshown
  obtain ⟨hprinted, hsupplied⟩ := hshown
  obtain ⟨hinput, hfiles⟩ := hsupplied hyphenTerminal
  have hdetour := (hfiles "./-r.txt" ⟨by decide, by decide, by decide +kernel⟩).2
  rw [if_pos (by decide)] at hdetour
  have hattached := (hfiles "-r.txt" supplies_hyphenTerminal).1 (by decide)
  exact ⟨output_hyphenTerminal, supplies_hyphenTerminal, hprinted, hinput rfl, hdetour, hattached⟩

/-- A path that looks like an option is not taken for the value of another one. -/
theorem exists_not_shows :
    ∃ (arguments flags : List Text) (t : Terminal) (r : Request) (file path whole : Text),
      Request.ofArguments arguments = .ok r ∧ r.Prints file flags ∧ t.source file = file ∧
      (run arguments t).1 = .exit 0 ∧ t.host.answered.answer.output = whole ∧ '\r' ∉ whole ∧
      t.Supplies path whole ∧
      ¬Shows [dumpArgument, path, file] t (Markup.listing (Listing.retain file whole)) := by
  refine ⟨["--print", "/work/x.jai"], [], hyphenTerminal, { file := some "/work/x.jai", printsOnce := true },
    "/work/x.jai", "-r.txt", wholeListing, rfl, ⟨rfl, rfl, rfl, rfl, rfl⟩, by decide +kernel,
    fst_run_hyphenTerminal, output_hyphenTerminal, by decide, supplies_hyphenTerminal, fun hshown => ?_⟩
  have hending : (run [dumpArgument, "-r.txt", "/work/x.jai"] hyphenTerminal).1 = .exit 2 := by decide +kernel
  rw [hshown.1] at hending
  cases hending

end CommandLine

end DisasmLens
