import DisasmLens.Build
import DisasmLens.Proofs.RetentionLaw

/-!
# Counts of what is kept

A line that is kept is one at a position that is kept (`countP_keptLines`), so the counts of a filtered listing can be
told from the whole one (`snd_process`).

A text always has a line, but the empty text is counted as a listing without lines. So where a blank line is all that
is kept, it is counted among the lines that are not shown (`Build.hiddenLines_withProcessed`).
-/

namespace DisasmLens

/-- Every line is of one of four kinds, and three of these are counted. -/
theorem Summary.total_ofLines (ls : List Text) :
    (ofLines ls).total =
      (ofLines ls).labels + (ofLines ls).instructions + (ofLines ls).locations + ls.countP (LineKind.of · = .empty) := by
  simp only [ofLines]
  induction ls with
  | nil => rfl
  | cons line ls ih =>
    simp only [List.length_cons, List.countP_cons]
    cases LineKind.of line <;> simp <;> omega

namespace Listing

/-! ### Positions -/

theorem countP_eq_countP_range (p : Text → Bool) (ls : List Text) :
    ls.countP p = (List.range ls.length).countP fun j => ls[j]?.any p := by
  induction ls with
  | nil => rfl
  | cons line ls ih =>
    rw [List.length_cons, List.range_succ_eq_map, List.countP_cons, List.countP_cons, List.countP_map, ih]
    rfl

theorem countP_keptLines (p : Text → Bool) (target : Text) (ls : List Text) :
    (keptLines target ls).countP p = (List.range ls.length).countP fun j => ls[j]?.any p ∧ Kept target ls j := by
  rw [keptLines, List.countP_filterMap, List.countP_filter]
  refine List.countP_congr fun j _ => ?_
  cases ls[j]? <;> simp

theorem countP_keptLines_eq {p q : Text → Bool} {target : Text} {ls : List Text}
    (h : ∀ j line, ls[j]? = some line → (p line = true ∧ Kept target ls j ↔ q line = true)) :
    (keptLines target ls).countP p = ls.countP q := by
  rw [countP_keptLines, countP_eq_countP_range]
  refine List.countP_congr fun j _ => ?_
  cases hline : ls[j]? with
  | none => simp
  | some line => simpa using h j line hline

/-! ### Kinds of lines -/

variable (target : Text) (ls : List Text)

/-- The nearest header above a position is a location of the target. -/
def IsUnder (j : Nat) : Prop := ∃ header, IsNearestHeader ls j header ∧ LineKind.of header = .text ∧ target <:+: header

instance : DecidablePred (IsUnder target ls) := fun _ => decidable_of_iff _ endsInside_take_iff

theorem countP_keptLines_label :
    (keptLines target ls).countP (LineKind.of · = .label) = ls.countP (LineKind.of · = .label) := by
  refine countP_keptLines_eq fun j line hline => ?_
  simp +contextual [Kept, hline]

theorem countP_keptLines_empty :
    (keptLines target ls).countP (LineKind.of · = .empty) = ls.countP (LineKind.of · = .empty) := by
  refine countP_keptLines_eq fun j line hline => ?_
  simp +contextual [Kept, hline]

theorem countP_keptLines_text :
    (keptLines target ls).countP (LineKind.of · = .text) = ls.countP (opensBlock target) := by
  refine countP_keptLines_eq fun j line hline => ?_
  simp +contextual [Kept, hline, opensBlock, Text.hasPart_iff]

theorem countP_keptLines_instruction :
    (keptLines target ls).countP (LineKind.of · = .instruction) =
      (List.range ls.length).countP fun j =>
        ls[j]?.any (LineKind.of · = .instruction) ∧ j + 1 < ls.length ∧ IsUnder target ls j := by
  rw [countP_keptLines]
  refine List.countP_congr fun j _ => ?_
  rw [decide_eq_true_iff, decide_eq_true_iff]
  cases hline : ls[j]? with
  | none => simp
  | some line =>
    by_cases hk : LineKind.of line = .instruction
    · simp [Kept, hline, hk, IsUnder]
    · simp [hk]

def droppedCount : Nat := (List.range ls.length).countP fun j => ¬Kept target ls j

theorem length_keptLines : (keptLines target ls).length + droppedCount target ls = ls.length := by
  have hkept := countP_keptLines (fun _ => true) target ls
  have hthere : ∀ j ∈ List.range ls.length, ls[j]?.any (fun _ => true) = true := fun j hj => by
    rw [List.getElem?_eq_getElem (List.mem_range.mp hj), Option.any_some]
  have hpositions : (List.range ls.length).countP (fun j => ls[j]?.any (fun _ => true) ∧ Kept target ls j) =
      (List.range ls.length).countP fun j => Kept target ls j :=
    List.countP_congr fun j hj => by simp [hthere j hj]
  have hsplit := List.length_eq_countP_add_countP (fun j => decide (Kept target ls j)) (l := List.range ls.length)
  rw [List.countP_true, hpositions] at hkept
  simp only [List.length_range, decide_eq_true_eq] at hsplit
  rw [hkept, droppedCount]
  exact hsplit.symm

/-! ### The filtered listing -/

theorem unlines_eq_nil_iff {ls : List Text} : Text.unlines ls = [] ↔ ls = [] ∨ ls = [[]] := by
  rcases ls with _ | ⟨line, _ | ⟨next, below⟩⟩
  · exact iff_of_true rfl (.inl rfl)
  · rw [Text.unlines_singleton]
    simp
  · rw [Text.unlines_cons (List.cons_ne_nil next below)]
    simp

variable {target : Text} {whole : Text}

theorem retain_eq_unlines : retain target whole = Text.unlines (keptLines target whole.lines) := by
  rw [retain, keepLines_eq_keptLines]

/-- The lines of the filtered text are those that are kept, except that the empty text has no line to count. -/
theorem summaryOf_retain :
    Summary.of (retain target whole) =
      { Summary.ofLines (keptLines target whole.lines) with
        total := if retain target whole = [] then 0 else (keptLines target whole.lines).length } := by
  by_cases hr : retain target whole = []
  · rw [if_pos hr, hr, Summary.of_nil]
    rw [retain_eq_unlines, unlines_eq_nil_iff] at hr
    rcases hr with hr | hr
    · rw [hr]
      rfl
    · rw [hr]
      rfl
  · have hne : keepLines target false whole.lines ≠ [] := fun h => hr (retain_eq_nil h)
    rw [if_neg hr, Summary.of_ne_nil hr, lines_retain hne, keepLines_eq_keptLines]
    rfl

theorem snd_process (target whole : Text) :
    let ls := whole.lines
    let listing := (process target whole).1
    let s := (process target whole).2
    s.labels = ls.countP (LineKind.of · = .label) ∧
      s.locations = ls.countP (opensBlock target) ∧
      s.instructions = (List.range ls.length).countP (fun j =>
        ls[j]?.any (LineKind.of · = .instruction) ∧ j + 1 < ls.length ∧ IsUnder target ls j) ∧
      if listing = [] then s = {}
      else s.total - (s.labels + s.locations + s.instructions) = ls.countP (LineKind.of · = .empty) := by
  intro ls listing s
  have hs : s = { Summary.ofLines (keptLines target ls) with
      total := if listing = [] then 0 else (keptLines target ls).length } := summaryOf_retain
  refine ⟨?_, ?_, ?_, ?_⟩
  · rw [hs, ← countP_keptLines_label target ls]
    rfl
  · rw [hs, ← countP_keptLines_text target ls]
    rfl
  · rw [hs, ← countP_keptLines_instruction target ls]
    rfl
  · split
    · rename_i hempty
      show Summary.of listing = {}
      rw [hempty, Summary.of_nil]
    · rename_i hshown
      have htotal := Summary.total_ofLines (keptLines target ls)
      rw [countP_keptLines_empty] at htotal
      have hlength : (Summary.ofLines (keptLines target ls)).total = (keptLines target ls).length := rfl
      rw [hs, if_neg hshown]
      dsimp only
      omega

end Listing

namespace Build

def withProcessed (b : Build) (target whole : Text) (time : Int) : Build :=
  b.withListing (Listing.process target whole).1 (Listing.process target whole).2 whole time

/-- The lines that are not shown are those that are not kept, and the blank one if nothing else is kept. -/
theorem hiddenLines_withProcessed (b : Build) (target : Text) {whole : Text} (time : Int) (hw : whole ≠ []) :
    (b.withProcessed target whole time).hiddenLines =
      Listing.droppedCount target whole.lines + if Listing.keptLines target whole.lines = [[]] then 1 else 0 := by
  have hhidden : (b.withProcessed target whole time).hiddenLines =
      (whole.lines.length : Int) - (Summary.of (Listing.retain target whole)).total := if_neg hw
  have hlength := Listing.length_keptLines target whole.lines
  rw [hhidden, Listing.summaryOf_retain, Listing.retain_eq_unlines, ← hlength]
  dsimp only
  by_cases hblank : Listing.keptLines target whole.lines = [[]]
  · rw [if_pos hblank, if_pos (Listing.unlines_eq_nil_iff.mpr (.inr hblank)), hblank, List.length_singleton]
    omega
  rw [if_neg hblank]
  split
  · rename_i hempty
    rw [(Listing.unlines_eq_nil_iff.mp hempty).resolve_right hblank, List.length_nil]
    omega
  · omega

def twoFiles : Text := "main():\n/work/x.jai:1\n  1: push\n/lib/r.jai:7\n  2: nop\n"

theorem hiddenLines_withProcessed_twoFiles :
    twoFiles ≠ [] ∧ (withProcessed {} "/work/x.jai" twoFiles 0).hiddenLines = 2 :=
  ⟨by decide, (hiddenLines_withProcessed {} "/work/x.jai" 0 (by decide)).trans (by decide +kernel)⟩

/-- Behind the location of another file a line feed ends the listing, and the blank line is counted as hidden. -/
theorem exists_hiddenLines_ne :
    ∃ (b : Build) (target whole : Text) (time : Int), whole ≠ [] ∧
      (b.withProcessed target whole time).hiddenLines ≠ Listing.droppedCount target whole.lines :=
  ⟨{}, "/work/x.jai", "/lib/r.jai:7\n", 0, by decide, by decide⟩

end Build

end DisasmLens
