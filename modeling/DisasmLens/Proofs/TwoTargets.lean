import DisasmLens.Proofs.RetentionLaw

/-!
# Filtering for two targets

What was kept for one target is filtered for another one. The second pass reads a listing from which locations have
gone, and with each of them the instructions below it, so no line comes to stand under another location. Only the last
line is judged by its place. A listing that ends in a line feed has a blank one there, which both passes keep, and so
the two targets may change places (`retain_retain_comm`).
-/

namespace DisasmLens.Listing

/-! ### Lines kept for both -/

/-- The line at a position is kept for two targets: an empty line and a label always, a location that has both, and an
instruction whose nearest header is a location that has both. -/
def KeptForBoth (a b : Text) (ls : List Text) (j : Nat) : Prop :=
  ∃ line, ls[j]? = some line ∧
    match LineKind.of line with
    | .empty | .label => True
    | .text => a <:+: line ∧ b <:+: line
    | .instruction =>
      ∃ header, IsNearestHeader ls j header ∧ LineKind.of header = .text ∧ a <:+: header ∧ b <:+: header

def keepsForBoth (a b : Text) (above : List Text) (line : Text) : Bool :=
  match LineKind.of line with
  | .empty | .label => true
  | .text => Text.hasPart a line && Text.hasPart b line
  | .instruction => endsInside a above && endsInside b above

theorem endsInside_take_both_iff {a b : Text} {ls : List Text} {j : Nat} :
    endsInside a (ls.take j) = true ∧ endsInside b (ls.take j) = true ↔
      ∃ header, IsNearestHeader ls j header ∧ LineKind.of header = .text ∧ a <:+: header ∧ b <:+: header := by
  simp only [← lastHeader?_take_eq_some_iff, endsInside]
  cases lastHeader? (ls.take j) with
  | none => simp
  | some header =>
    simp only [Option.any_some, opensBlock, Bool.and_eq_true, decide_eq_true_eq, Text.hasPart_iff,
      Option.some.injEq, exists_eq_left']
    constructor
    · rintro ⟨⟨hk, ha⟩, -, hb⟩
      exact ⟨hk, ha, hb⟩
    · rintro ⟨hk, ha, hb⟩
      exact ⟨⟨hk, ha⟩, hk, hb⟩

theorem keptForBoth_iff (a b : Text) (above : List Text) (line : Text) (below : List Text) :
    KeptForBoth a b (above ++ line :: below) above.length ↔ keepsForBoth a b above line = true := by
  have hline : (above ++ line :: below)[above.length]? = some line := by simp
  have habove : (above ++ line :: below).take above.length = above := by simp
  simp only [KeptForBoth, hline, Option.some.injEq, exists_eq_left', keepsForBoth, ← endsInside_take_both_iff, habove]
  cases LineKind.of line <;> simp [Text.hasPart_iff]

instance (a b : Text) (ls : List Text) : DecidablePred (KeptForBoth a b ls) := fun j =>
  if h : j < ls.length then
    decidable_of_iff (keepsForBoth a b (ls.take j) ls[j] = true) (by
      have hk := keptForBoth_iff a b (ls.take j) ls[j] (ls.drop (j + 1))
      rw [List.getElem_cons_drop, List.take_append_drop, List.length_take_of_le (Nat.le_of_lt h)] at hk
      exact hk.symm)
  else
    isFalse (by
      rintro ⟨line, hl, -⟩
      exact h (List.getElem?_eq_some_iff.mp hl).1)

def commonLines (a b : Text) (ls : List Text) : List Text :=
  ((List.range ls.length).filter fun j => KeptForBoth a b ls j).filterMap fun j => ls[j]?

theorem keptForBoth_comm (a b : Text) (ls : List Text) (j : Nat) : KeptForBoth a b ls j ↔ KeptForBoth b a ls j := by
  simp only [KeptForBoth, and_comm (a := a <:+: _)]

theorem commonLines_comm (a b : Text) (ls : List Text) : commonLines a b ls = commonLines b a ls := by
  simp only [commonLines, keptForBoth_comm a b ls]

/-! ### The second pass -/

theorem eq_nil_or_getLast?_of_cons {line : Text} {below : List Text} (h : (line :: below).getLast? = some []) :
    line = [] ∨ below.getLast? = some [] := by
  cases below with
  | nil => exact .inl (by simpa using h)
  | cons next below => exact .inr (by rwa [List.getLast?_cons_cons] at h)

theorem keepLines_ne_nil_of_getLast? {target : Text} {inside : Bool} {ls : List Text} (h : ls.getLast? = some []) :
    keepLines target inside ls ≠ [] := by
  induction ls generalizing inside with
  | nil => cases h
  | cons line below ih =>
    rcases eq_nil_or_getLast?_of_cons h with rfl | hbelow
    · exact List.cons_ne_nil _ _
    · rw [keepLines]
      split
      · exact List.cons_ne_nil _ _
      · exact List.cons_ne_nil _ _
      · split
        · exact List.cons_ne_nil _ _
        · exact ih hbelow
      · split
        · exact List.cons_ne_nil _ _
        · exact ih hbelow

/-- One line through both passes. The bit of the second one counts only inside a block of the first target, where it is
that of the lines above. -/
theorem exists_keepLines_keepLines_cons {a b line : Text} {above below : List Text} {inside : Bool}
    (hbit : endsInside a above = true → inside = endsInside b above) (hlast : (line :: below).getLast? = some []) :
    ∃ next, (endsInside a (above ++ [line]) = true → next = endsInside b (above ++ [line])) ∧
      keepLines b inside (keepLines a (endsInside a above) (line :: below)) =
        (if keepsForBoth a b above line then [line] else []) ++
          keepLines b next (keepLines a (endsInside a (above ++ [line])) below) := by
  rw [endsInside_concat, endsInside_concat]
  cases hk : LineKind.of line with
  | empty =>
    refine ⟨inside, ?_, ?_⟩
    · simpa [isHeader, hk] using hbit
    · simp [keepLines, keepsForBoth, isHeader, hk]
  | label =>
    refine ⟨false, ?_, ?_⟩
    · simp [isHeader, opensBlock, hk]
    · simp [keepLines, keepsForBoth, isHeader, opensBlock, hk]
  | text =>
    cases ha : Text.hasPart a line with
    | false =>
      refine ⟨inside, ?_, ?_⟩
      · simp [isHeader, opensBlock, hk, ha]
      · simp [keepLines, keepsForBoth, isHeader, opensBlock, hk, ha]
    | true =>
      refine ⟨Text.hasPart b line, ?_, ?_⟩
      · simp [isHeader, opensBlock, hk]
      · cases hb : Text.hasPart b line <;> simp [keepLines, keepsForBoth, isHeader, opensBlock, hk, ha, hb]
  | instruction =>
    refine ⟨inside, by simpa [isHeader, hk] using hbit, ?_⟩
    cases hi : endsInside a above with
    | false => simp [keepLines, keepsForBoth, isHeader, hk, hi]
    | true =>
      -- the blank line below is still there in the second pass
      have hbelow : below.getLast? = some [] := by
        refine (eq_nil_or_getLast?_of_cons hlast).resolve_left ?_
        rintro rfl
        cases hk
      have hne : below ≠ [] := by
        rintro rfl
        cases hbelow
      have hkept : keepLines a true below ≠ [] := keepLines_ne_nil_of_getLast? hbelow
      rw [hbit hi]
      cases hb : endsInside b above <;> simp [keepLines, keepsForBoth, isHeader, hk, hi, hb, hne, hkept]

theorem keepLines_keepLines_below {a b : Text} {above below : List Text} {inside : Bool}
    (hbit : endsInside a above = true → inside = endsInside b above) (hlast : below ≠ [] → below.getLast? = some []) :
    keepLines b inside (keepLines a (endsInside a above) below) =
      ((List.range' above.length below.length).filter fun j => KeptForBoth a b (above ++ below) j).filterMap
        fun j => (above ++ below)[j]? := by
  induction below generalizing above inside with
  | nil => rfl
  | cons line below ih =>
    have hcons := hlast (List.cons_ne_nil line below)
    obtain ⟨next, hnext, hstep⟩ := exists_keepLines_keepLines_cons hbit hcons
    have hrest := ih hnext fun hne => by
      rw [List.getLast?_cons_of_ne_nil hne] at hcons
      exact hcons
    rw [List.append_assoc, List.singleton_append, List.length_append, List.length_singleton] at hrest
    have hline : (above ++ line :: below)[above.length]? = some line := by simp
    rw [hstep, hrest, List.length_cons, List.range'_succ, List.filter_cons]
    simp only [keptForBoth_iff, decide_eq_true_eq]
    split
    · simp only [List.filterMap_cons, hline, List.singleton_append]
    · simp only [List.nil_append]

/-! ### The filtered listing -/

theorem getLast?_lines {listing : Text} (h : listing = [] ∨ listing.getLast? = some '\n') :
    listing.lines.getLast? = some [] := by
  rcases h with rfl | h
  · rfl
  · obtain ⟨front, rfl⟩ := List.getLast?_eq_some_iff.mp h
    rw [Text.lines_append front []]
    simp [Text.lines]

theorem retain_retain_eq_unlines_commonLines {listing : Text} (h : listing = [] ∨ listing.getLast? = some '\n')
    (a b : Text) : retain b (retain a listing) = Text.unlines (commonLines a b listing.lines) := by
  have hlast := getLast?_lines h
  have hpasses := @keepLines_keepLines_below a b [] listing.lines false (fun _ => rfl) fun _ => hlast
  rw [endsInside_nil, List.nil_append, List.length_nil] at hpasses
  rw [retain, lines_retain (keepLines_ne_nil_of_getLast? hlast), hpasses, commonLines, List.range_eq_range']

/-- Behind a line feed two targets may be filtered for in either order: what stays is what is kept for both. -/
theorem retain_retain_comm {listing : Text} (h : listing = [] ∨ listing.getLast? = some '\n') (a b : Text) :
    retain b (retain a listing) = retain a (retain b listing) ∧
      retain b (retain a listing) = Text.unlines (commonLines a b listing.lines) := by
  have hab := retain_retain_eq_unlines_commonLines h a b
  have hba := retain_retain_eq_unlines_commonLines h b a
  rw [commonLines_comm b a, ← hab] at hba
  exact ⟨hba.symm, hab⟩

def threeLocations : Text := "f():\na.jai:1\n  push\na.jai:2\n  nop\nb.jai:1\n  ret\n"

theorem retain_retain_comm_threeLocations :
    threeLocations.getLast? = some '\n' ∧
      retain ":1" (retain "a.jai" threeLocations) = retain "a.jai" (retain ":1" threeLocations) ∧
      retain ":1" (retain "a.jai" threeLocations) = "f():\na.jai:1\n  push\n".toList := by
  have hfeed : threeLocations.getLast? = some '\n' := by decide
  obtain ⟨hcomm, hcommon⟩ := retain_retain_comm (.inr hfeed) "a.jai" ":1"
  exact ⟨hfeed, hcomm, hcommon.trans (by decide)⟩

/-- Without a line feed at the end the order counts: the location at the end decides whether there is a line below the
instruction. -/
example : retain ":2" (retain "a.jai" "a.jai:2\n  ret\nb.jai:2") ≠ retain "a.jai" (retain ":2" "a.jai:2\n  ret\nb.jai:2") := by
  decide

end DisasmLens.Listing
