import DisasmLens.Proofs.SessionRuns

/-!
# What a session shows of its latest build

The listing of a reachable session is that of its latest refresh or none (`Coherent`). Whether the report, the
diagnostics and the arguments beside it are of one refresh is another matter (`IsFresh`): a fault leaves the
diagnostics and most often the arguments of an earlier one.
-/

namespace DisasmLens.Session

/-! ### Listings -/

theorem total_retain_le (target whole : Text) :
    (Summary.of (Listing.retain target whole)).total ≤ whole.lines.length := by
  by_cases hr : Listing.retain target whole = []
  · rw [hr, Summary.of_nil]
    exact Int.natCast_nonneg _
  · have hne : Listing.keepLines target false whole.lines ≠ [] := fun h => hr (Listing.retain_eq_nil h)
    have hlen := (Listing.keepLines_sublist target false whole.lines).length_le
    rw [Summary.of_ne_nil hr, Summary.ofLines, Listing.lines_retain hne]
    exact Int.ofNat_le.mpr hlen

theorem hiddenLines_nonneg {b : Build} {target : Text} (hl : b.listing = Listing.retain target b.whole)
    (hs : b.summary = Summary.of b.listing) : 0 ≤ b.hiddenLines := by
  have ht := total_retain_le target b.whole
  rw [← hl, ← hs] at ht
  unfold Build.hiddenLines
  split <;> omega

/-- A build agrees with the latest refresh, if there was one. A listing that is there comes with all else from that
refresh, which nothing broke off, and after one without a listing none is left. -/
structure Coherent (latest : Option Refresh) (b : Build) : Prop where
  codeLines_eq : b.codeLines = Text.boundaryLines b.code
  listing_eq : ∃ target, (∀ r ∈ latest, r.session.build.source = target) ∧
    b.listing = Listing.retain target b.whole
  summary_eq : b.summary = Summary.of b.listing
  hiddenLines_nonneg : 0 ≤ b.hiddenLines
  of_whole : b.whole ≠ [] → ∃ r ∈ latest,
    r.outcome = .complete b.code b.whole b.report b.diagnostics ∧
      Diagnostic.parseAll b.report = .ok b.diagnostics ∧ b.flags = r.session.flags
  of_failed : ∀ r ∈ latest, ¬ r.outcome.HasListing → b.whole = [] ∧ b.listing = [] ∧ b.summary = {}

theorem coherent_withoutListing (latest : Option Refresh) {b : Build} (time : Int)
    (hc : b.codeLines = Text.boundaryLines b.code) : Coherent latest (b.withoutListing time) where
  codeLines_eq := hc
  listing_eq := by
    cases latest with
    | none => exact ⟨[], by simp, rfl⟩
    | some r => exact ⟨r.session.build.source, by simp, rfl⟩
  summary_eq := rfl
  hiddenLines_nonneg := Int.le_refl 0
  of_whole := fun h => absurd rfl h
  of_failed := fun _ _ _ => ⟨rfl, rfl, rfl⟩

theorem coherent_update {r : Refresh} (time : Int)
    (hc : r.session.build.codeLines = Text.boundaryLines r.session.build.code) :
    Coherent (some r) (r.outcome.update r.session.flags time r.session.build) := by
  cases ho : r.outcome with
  | unread f => exact coherent_withoutListing _ time hc
  | uncompiled code f => exact coherent_withoutListing _ time rfl
  | unparsed code report numeral => exact coherent_withoutListing _ time rfl
  | complete code whole report diagnostics =>
    dsimp only [Outcome.update]
    split
    · exact coherent_withoutListing _ time rfl
    · rename_i hw
      exact
        { codeLines_eq := rfl
          listing_eq := ⟨r.session.build.source, by simp, rfl⟩
          summary_eq := rfl
          hiddenLines_nonneg := hiddenLines_nonneg rfl rfl
          of_whole := fun _ => ⟨r, rfl, ho, parseAll_of_outcome ho, rfl⟩
          of_failed := by
            intro r' hr' hf
            cases hr'
            rw [ho] at hf
            exact absurd hw hf }

theorem Coherent.setSource {latest : Option Refresh} {b : Build} (hb : Coherent latest b)
    (source : Text) : Coherent latest { b with source } :=
  ⟨hb.codeLines_eq, hb.listing_eq, hb.summary_eq, hb.hiddenLines_nonneg, hb.of_whole, hb.of_failed⟩

theorem coherent_take {latest : Option Refresh} {s : Session} (hb : Coherent latest s.build)
    (step : Step) (h : Host) :
    Coherent ((s.refreshBy? h step).or latest) ((s.take step).run h).1.build := by
  cases hr : s.refreshBy? h step with
  | none =>
    obtain ⟨source, hs⟩ := build_take_of_not_refreshBy hr
    rw [hs]
    exact hb.setSource source
  | some r =>
    obtain ⟨hrb, time, ht⟩ := build_take_of_refreshBy hr
    rw [ht, ← hrb]
    exact coherent_update time (by rw [hrb]; exact hb.codeLines_eq)

theorem coherent_load {source : Text} {s : Session} {h h' : Host}
    (hl : (Session.load source).run.run h = (.ok s, h')) : Coherent none s.build := by
  rw [build_load hl]
  exact coherent_withoutListing (b := { source }) none 0 rfl

theorem coherent_of_reachable {latest : Option Refresh} {s : Session} {h : Host}
    (hr : Reachable latest s h) : Coherent latest s.build := by
  induction hr with
  | load flags isSubscribed hl =>
    have hb := coherent_load hl
    exact hb
  | step step _ ih => exact coherent_take ih step _
  | host _ _ ih => exact ih

def loadsTo (source : Text) (h : Host) (test : Session → Host → Bool) : Bool :=
  match (Session.load source).run.run h with
  | (.ok s, h) => test s h
  | (.error _, _) => false

theorem exists_of_loadsTo {source : Text} {h : Host} {test : Session → Host → Bool}
    (ht : loadsTo source h test = true) :
    ∃ s h', (Session.load source).run.run h = (.ok s, h') ∧ test s h' = true := by
  unfold loadsTo at ht
  split at ht
  · exact ⟨_, _, ‹_›, ht⟩
  · cases ht

/-- A host with a source file and both tools. The first run leaves an executable, and the second one lists
two instructions of the source file. -/
def listingHost : Host :=
  let h : Host := {
    tools := [("jai", "/bin/jai"), ("objdump", "/bin/objdump")]
    answers :=
      [{ creates := ["/work/x"] },
       { output := "main():\n/work/x.jai:1\n  1: push\n  2: ret\n/lib/r.jai:7\n  3: nop\n" }] }
  h.withOwnDirectories.withEntry "/work/x.jai" (.file (Utf8.encode "main :: () {}\n"))

theorem coherent_of_reachable_listing :
    ∃ latest s h, Reachable latest s h ∧ s.build.hiddenLines = 2 ∧ Coherent latest s.build := by
  have ht : loadsTo "/work/x.jai" listingHost (fun s h =>
      ((take { s with flags := [], isSubscribed := true } .refresh).run h).1.build.hiddenLines = 2) = true := by
    decide +kernel
  obtain ⟨s, h, hl, hw⟩ := exists_of_loadsTo ht
  have hr := Reachable.step .refresh (Reachable.load [] true hl)
  exact ⟨_, _, _, hr, of_decide_eq_true hw, coherent_of_reachable hr⟩

/-! ### Reports -/

/-- The diagnostics are those of the report, and the arguments those that the session has now. -/
def IsFresh (s : Session) : Prop :=
  Diagnostic.parseAll s.build.report = .ok s.build.diagnostics ∧ s.build.flags = s.flags

/-- What a rebuild needs of the build before for the report, the diagnostics and the arguments to belong
together after it. If a fault breaks it off then the diagnostics stay and have to be, by chance, those of the
words for the fault. The arguments stay too, unless it gets as far as the report. -/
def Outcome.LeavesFresh (flags : List Text) (b : Build) : Outcome → Prop
  | .unread f | .uncompiled _ f =>
    Diagnostic.parseAll (faultReport f) = .ok b.diagnostics ∧ b.flags = flags
  | .unparsed _ _ numeral =>
    Diagnostic.parseAll (faultReport (.longNumeral numeral)) = .ok b.diagnostics
  | .complete .. => True

theorem flags_refresh (s : Session) (h : Host) : (s.refresh.run h).1.flags = s.flags := by
  obtain ⟨time, ht⟩ := fst_refresh s h
  rw [ht, publish]
  split <;> rfl

theorem isFresh_refresh (s : Session) (h : Host) :
    IsFresh (s.refresh.run h).1 ↔ (s.refreshOn h).outcome.LeavesFresh s.flags s.build := by
  obtain ⟨time, ht⟩ := build_refresh s h
  rw [IsFresh, flags_refresh, ht]
  cases ho : (s.refreshOn h).outcome with
  | unread f => exact Iff.rfl
  | uncompiled code f => exact Iff.rfl
  | unparsed code report numeral => exact and_iff_left rfl
  | complete code whole report diagnostics =>
    have hp := parseAll_of_outcome ho
    dsimp only [Outcome.update, Outcome.LeavesFresh]
    split
    · exact iff_true_intro ⟨hp, rfl⟩
    · exact iff_true_intro ⟨hp, rfl⟩

/-- When a refresh, and likewise a change of the arguments, leaves all that is shown beside the listing of one
build: always if no fault breaks it off, and otherwise by chance only. -/
theorem isFresh_refresh_iff (s : Session) (h : Host) :
    (IsFresh (s.refresh.run h).1 ↔ (s.refreshOn h).outcome.LeavesFresh s.flags s.build) ∧
      ∀ flags, IsFresh ((s.setFlags flags).run h).1 ↔
        (refreshOn { s with flags } h).outcome.LeavesFresh flags s.build :=
  ⟨isFresh_refresh s h, fun flags => isFresh_refresh { s with flags } h⟩

def errorHost : Host :=
  let h : Host := {
    tools := [("jai", "/bin/jai")]
    answers := [{ code := 1, errors := "/work/x.jai:2,5: Error: bad\n" }] }
  h.withOwnDirectories.withEntry "/work/x.jai" (.file (Utf8.encode "main :: () {}\n"))

/-- An error is reported, the source file is taken away, and the arguments are changed: the error is still
counted, and the old arguments are still shown, beside the words that the file is missing. -/
theorem exists_reachable_not_isFresh :
    ∃ latest s h, Reachable latest s h ∧
      Diagnostic.parseAll ((s.setFlags ["-release"]).run h).1.build.report = .ok [] ∧
      ((s.setFlags ["-release"]).run h).1.build.diagnostics ≠ [] ∧
      ((s.setFlags ["-release"]).run h).1.build.flags ≠ ((s.setFlags ["-release"]).run h).1.flags := by
  have ht : loadsTo "/work/x.jai" errorHost (fun s h =>
      let first := (take { s with flags := [], isSubscribed := true } .refresh).run h
      let second := (first.1.setFlags ["-release"]).run (first.2.withoutEntry "/work/x.jai")
      (Diagnostic.parseAll second.1.build.report).toOption = some [] ∧
        second.1.build.diagnostics ≠ [] ∧ second.1.build.flags ≠ second.1.flags) = true := by
    decide +kernel
  obtain ⟨s, h, hl, hs⟩ := exists_of_loadsTo ht
  have hr := Reachable.step .refresh (Reachable.load [] true hl)
  obtain ⟨hp, hd, hf⟩ := of_decide_eq_true hs
  refine ⟨_, _, _, Reachable.host _ hr, ?_, hd, hf⟩
  revert hp
  cases Diagnostic.parseAll _ with
  | error numeral => intro hp; cases hp
  | ok diagnostics => intro hp; rw [Option.some.inj hp]

end DisasmLens.Session
