import DisasmLens.Proofs.WatcherRuns

/-!
# What is reported as a save

An event is reported if and only if it may have saved the watched file and the latest report since watching began
is more than half a second back (`reported_iff_of_run`). So no two reports follow each other more closely than
that, and an event that is left out has a report shortly before it.

The time between two readings of the clock is rounded before it is compared. `Instant.ComparesExactly` says that
this makes no difference.
-/

namespace DisasmLens

namespace Instant

def halfSecond : Int := Nat.pow 2 1073

/-- Times that are above half a second by this or less are rounded to half a second. -/
def slack : Nat := Nat.pow 2 1020

/-- The time between two readings is not so little above half a second that it is rounded down to it. -/
def ComparesExactly (earlier later : Instant) : Prop :=
  later - earlier ≤ halfSecond ∨ halfSecond + slack < later - earlier

theorem withinHalfSecond_eq_false_iff {earlier later : Instant} :
    earlier.withinHalfSecond later = false ↔ halfSecond + slack < later - earlier := by
  unfold halfSecond slack
  simp only [withinHalfSecond, decide_eq_false_iff_not, Int.not_le, Int.natCast_add]

theorem halfSecond_lt_of_not_within {earlier later : Instant} (h : earlier.withinHalfSecond later = false) :
    halfSecond < later - earlier := by
  rw [withinHalfSecond_eq_false_iff] at h
  omega

theorem ComparesExactly.withinHalfSecond_eq_false_iff {earlier later : Instant} (h : ComparesExactly earlier later) :
    earlier.withinHalfSecond later = false ↔ halfSecond < later - earlier := by
  refine ⟨halfSecond_lt_of_not_within, fun hlt => ?_⟩
  rw [Instant.withinHalfSecond_eq_false_iff]
  exact h.resolve_left (Int.not_le.mpr hlt)

end Instant

/-! ### Events that may have saved a file -/

/-- The event is that a file was modified or created at a path or moved to it, seen from a directory the path is that
of the source file, and it has its extension. -/
def FileEvent.IsSaveOf (e : FileEvent) (directory : Text) (source : AbsolutePath) : Prop :=
  e.isDirectory = false ∧ ∃ path : Text,
    ((e.change = .modified ∨ e.change = .created) ∧ path = e.path ∨ e.change = .moved path) ∧
      path ≠ [] ∧ Path.extension path = Path.sourceExtension ∧ Path.resolve directory path = source

theorem FileEvent.savedPath?_eq_some_iff {e : FileEvent} {path : Text} :
    e.savedPath? = some path ↔ e.isDirectory = false ∧
      ((e.change = .modified ∨ e.change = .created) ∧ path = e.path ∨ e.change = .moved path) := by
  unfold savedPath?
  cases e.isDirectory with
  | true => simp
  | false => cases e.change <;> simp [eq_comm]

theorem Watch.isSource_iff {watch : Watch} {directory path : Text} :
    watch.isSource directory path = true ↔
      path ≠ [] ∧ Path.extension path = Path.sourceExtension ∧ Path.resolve directory path = watch.source := by
  simp [isSource, Path.isSource, and_assoc]

theorem Watch.isDue_iff {watch : Watch} {e : FileEvent} {h : Host} :
    watch.isDue e h = true ↔ e.IsSaveOf h.directory watch.source ∧
      ∀ last ∈ watch.lastReport, last.withinHalfSecond h.instant = false := by
  have hquiet : watch.isQuiet h.instant = false ↔
      ∀ last ∈ watch.lastReport, last.withinHalfSecond h.instant = false := by
    unfold isQuiet
    cases watch.lastReport <;> simp
  rw [isDue, Bool.and_eq_true, Bool.not_eq_true', hquiet, Option.any_eq_true, FileEvent.IsSaveOf]
  simp only [FileEvent.savedPath?_eq_some_iff, Watch.isSource_iff]
  constructor
  · rintro ⟨⟨path, ⟨hfile, hpath⟩, hsource⟩, hlast⟩
    exact ⟨⟨hfile, path, hpath, hsource⟩, hlast⟩
  · rintro ⟨⟨hfile, path, hpath, hsource⟩, hlast⟩
    exact ⟨⟨path, ⟨hfile, hpath⟩, hsource⟩, hlast⟩

namespace Watcher

/-! ### One event -/

theorem report_iff {rs : List Record} {w : Watcher} (hw : w.watch = remembered? rs) (e : FileEvent) (h : Host)
    (path : Text) :
    ((w.deliver e).run h).1.2 = some path ↔ ∃ source, watched? rs = some source ∧ path = source.text ∧
      e.IsSaveOf h.directory source ∧ ∀ last ∈ lastReport? rs, last.withinHalfSecond h.instant = false := by
  rw [fst_deliver, hw, remembered?]
  cases watched? rs with
  | none => simp
  | some source =>
    dsimp only [Option.map_some]
    have hdue : (Watch.mk source (lastReport? rs)).isDue e h = true ↔ _ := Watch.isDue_iff
    split
    · rename_i hd
      constructor
      · intro hp
        exact ⟨source, rfl, (Option.some.inj hp).symm, hdue.mp hd⟩
      · rintro ⟨_, hs, rfl, -⟩
        cases hs
        rfl
    · rename_i hd
      constructor
      · intro hp
        cases hp
      · rintro ⟨_, hs, -, hsave⟩
        cases hs
        exact absurd (hdue.mpr hsave) hd

/-! ### Whole runs -/

/-- What was reported for an event is what the records behind it ask for. -/
theorem report_of_run {rs earlier : List Record} {w : Watcher} {h : Host} {e : FileEvent} {directory : Text}
    {time : Instant} {report : Option Text} (hr : Run rs w h)
    (hs : .event e directory time report :: earlier <:+ rs) (path : Text) :
    report = some path ↔ ∃ source, watched? earlier = some source ∧ path = source.text ∧
      e.IsSaveOf directory source ∧ ∀ last ∈ lastReport? earlier, last.withinHalfSecond time = false := by
  induction hr with
  | new h => cases List.suffix_nil.mp hs
  | host _ _ ih => exact ih hs
  | @step rs w h step hr ih =>
    rcases List.suffix_cons_iff.mp hs with hrs | hs
    · obtain ⟨hrecord, rfl⟩ := List.cons.inj hrs
      cases step with
      | start path =>
        rw [fst_perform_start] at hrecord
        split at hrecord
        · cases hrecord
        · cases hrecord
      | stop => cases hrecord
      | deliver event =>
        cases hrecord
        exact report_iff (watch_of_run hr) _ h path
    · exact ih hs

def times (rs : List Record) : List Instant :=
  rs.filterMap fun
    | .event _ _ time _ => some time
    | _ => none

/-- The clock does not go back from an event to the next. -/
def IsSteady (rs : List Record) : Prop := (times rs).Pairwise fun later earlier => earlier ≤ later

theorem mem_times_of_lastReport? {rs : List Record} {last : Instant} (h : lastReport? rs = some last) :
    last ∈ times rs := by
  induction rs with
  | nil => cases h
  | cons r rs ih =>
    cases r with
    | started source => cases h
    | refused fault => exact ih h
    | stopped => exact ih h
    | event e directory time report =>
      cases report with
      | some path =>
        cases h
        exact List.mem_cons_self
      | none => exact List.mem_cons_of_mem _ (ih h)

theorem exists_lastReport?_append {between earlier : List Record} {e : FileEvent} {directory path : Text}
    {time : Instant} (hb : ∀ source, .started source ∉ between) :
    ∃ last, lastReport? (between ++ .event e directory time (some path) :: earlier) = some last ∧
      (last = time ∨ last ∈ times between) := by
  induction between with
  | nil => exact ⟨time, rfl, .inl rfl⟩
  | cons r between ih =>
    obtain ⟨last, hlast, hmem⟩ := ih fun source hm => hb source (List.mem_cons_of_mem r hm)
    cases r with
    | started source => exact absurd List.mem_cons_self (hb source)
    | refused fault => exact ⟨last, hlast, hmem⟩
    | stopped => exact ⟨last, hlast, hmem⟩
    | event e' directory' time' report =>
      cases report with
      | some path' => exact ⟨time', rfl, .inr List.mem_cons_self⟩
      | none => exact ⟨last, hlast, hmem.imp_right (List.mem_cons_of_mem _)⟩

theorem IsSteady.le {rs earlier : List Record} {e : FileEvent} {directory : Text} {time t : Instant}
    {report : Option Text} (hc : IsSteady rs) (hs : .event e directory time report :: earlier <:+ rs)
    (ht : t ∈ times earlier) : t ≤ time := by
  have hsub : times (.event e directory time report :: earlier) <:+ times rs := hs.filterMap _
  exact List.rel_of_pairwise_cons (hc.sublist hsub.sublist) ht

/-- The rules by which saves are reported, read off records of which the latest comes first: which events are
reported, that two reports since watching began lie more than half a second apart, and that a save which is left out
was reported half a second before at the earliest. -/
structure ReportsSaves (rs : List Record) : Prop where
  path_eq : ∀ {e directory time path earlier}, .event e directory time (some path) :: earlier <:+ rs →
    ∃ source, watched? earlier = some source ∧ path = source.text
  reported_iff : ∀ {e directory time report earlier}, .event e directory time report :: earlier <:+ rs →
    (∀ last ∈ lastReport? earlier, last.ComparesExactly time) →
      (report.isSome = true ↔ ∃ source, watched? earlier = some source ∧ e.IsSaveOf directory source ∧
        ∀ last ∈ lastReport? earlier, Instant.halfSecond < time - last)
  apart : IsSteady rs → ∀ {e directory time path between e' directory' time' path' earlier},
    .event e directory time (some path) :: (between ++ .event e' directory' time' (some path') :: earlier) <:+ rs →
    (∀ source, .started source ∉ between) → Instant.halfSecond < time - time'
  accounted : IsSteady rs → ∀ {e directory time earlier source},
    .event e directory time none :: earlier <:+ rs →
    watched? earlier = some source → e.IsSaveOf directory source →
    (∀ last ∈ lastReport? earlier, last.ComparesExactly time) →
      ∃ last, lastReport? earlier = some last ∧ last ≤ time ∧ time - last ≤ Instant.halfSecond

theorem reportsSaves_of_run {rs : List Record} {w : Watcher} {h : Host} (hr : Run rs w h) : ReportsSaves rs where
  path_eq hs := by
    obtain ⟨source, hsource, hpath, -⟩ := (report_of_run hr hs _).mp rfl
    exact ⟨source, hsource, hpath⟩
  reported_iff hs hx := by
    rw [Option.isSome_iff_exists]
    constructor
    · rintro ⟨path, hp⟩
      obtain ⟨source, hsource, -, hsave, hlast⟩ := (report_of_run hr hs path).mp hp
      exact ⟨source, hsource, hsave, fun last hl => Instant.halfSecond_lt_of_not_within (hlast last hl)⟩
    · rintro ⟨source, hsource, hsave, hlast⟩
      refine ⟨source.text, (report_of_run hr hs _).mpr ⟨source, hsource, rfl, hsave, fun last hl => ?_⟩⟩
      exact (hx last hl).withinHalfSecond_eq_false_iff.mpr (hlast last hl)
  apart hc := by
    intro e directory time path between e' directory' time' path' earlier hs hb
    obtain ⟨last, hlast, hmem⟩ := exists_lastReport?_append hb
    obtain ⟨-, -, -, -, hfar⟩ := (report_of_run hr hs path).mp rfl
    have hlt := Instant.halfSecond_lt_of_not_within (hfar last hlast)
    -- the earlier report is the latest one, or it was followed by the latest one
    have hle : time' ≤ last := by
      rcases hmem with rfl | hmem
      · exact Int.le_refl _
      · have hsub : times (between ++ .event e' directory' time' (some path') :: earlier) <:+ times rs :=
          ((List.suffix_cons _ _).trans hs).filterMap _
        have hpairs : IsSteady (between ++ .event e' directory' time' (some path') :: earlier) :=
          hc.sublist hsub.sublist
        rw [IsSteady, times, List.filterMap_append, List.pairwise_append] at hpairs
        exact hpairs.2.2 last hmem time' List.mem_cons_self
    omega
  accounted hc := by
    intro e directory time earlier source hs hsource hsave hx
    have hnot := mt (report_of_run hr hs source.text).mpr (Option.some_ne_none source.text).symm
    cases hl : lastReport? earlier with
    | none =>
      refine absurd ⟨source, hsource, rfl, hsave, fun last hm => ?_⟩ hnot
      rw [hl] at hm
      cases hm
    | some last =>
      refine ⟨last, rfl, hc.le hs (mem_times_of_lastReport? hl), Int.not_lt.mp fun hlt => hnot ?_⟩
      refine ⟨source, hsource, rfl, hsave, fun last' hm => ?_⟩
      rw [hl] at hm
      cases hm
      exact (hx last hl).withinHalfSecond_eq_false_iff.mpr hlt

def sourceHost (time : Instant) : Host :=
  { ({} : Host).withOwnDirectories.withEntry "/work/x.jai" (.file []) with instant := time }

def savedEvent (change : FileChange) : FileEvent := { change, path := "/work/sub/../x.jai" }

def savedRecord (change : FileChange) (time : Instant) (report : Option Text) : Record :=
  .event (savedEvent change) "/work" time report

def watchSince (lastReport : Option Instant) : Watcher := ⟨some ⟨⟨["work", "x.jai"], false⟩, lastReport⟩⟩

/-- Saves half a second apart, a second apart and right behind a restart. -/
def restartRecords : List Record :=
  [savedRecord .created Instant.perSecond (some "/work/x.jai"), .started ⟨["work", "x.jai"], false⟩,
    savedRecord (.moved "x.jai") Instant.perSecond (some "/work/x.jai"),
    savedRecord .modified Instant.halfSecond none, savedRecord .modified 0 (some "/work/x.jai"),
    .started ⟨["work", "x.jai"], false⟩]

theorem reportsSaves_of_run_restart :
    ∃ w h, Run restartRecords w h ∧ IsSteady restartRecords ∧ ReportsSaves restartRecords := by
  have h₁ : Run (restartRecords.drop 5) (watchSince none) (sourceHost 0) :=
    .next (.start "x.jai") (.new (sourceHost 0)) (by decide +kernel) _
  have h₂ : Run (restartRecords.drop 4) (watchSince (some 0)) (sourceHost Instant.halfSecond) :=
    .next (.deliver (savedEvent .modified)) h₁ (by decide +kernel) _
  have h₃ : Run (restartRecords.drop 3) (watchSince (some 0)) (sourceHost Instant.perSecond) :=
    .next (.deliver (savedEvent .modified)) h₂ (by decide +kernel) _
  have h₄ : Run (restartRecords.drop 2) (watchSince (some Instant.perSecond)) (sourceHost Instant.perSecond) :=
    .next (.deliver (savedEvent (.moved "x.jai"))) h₃ (by decide +kernel) _
  have h₅ : Run (restartRecords.drop 1) (watchSince none) (sourceHost Instant.perSecond) :=
    .next (.start "x.jai") h₄ (by decide +kernel) _
  have h₆ : Run restartRecords (watchSince (some Instant.perSecond)) (sourceHost Instant.perSecond) :=
    .next (.deliver (savedEvent .created)) h₅ (by decide +kernel) _
  exact ⟨_, _, h₆, by unfold IsSteady; decide +kernel, reportsSaves_of_run h₆⟩

end Watcher

end DisasmLens
