import DisasmLens.Listing.Retention

/-!
# The law of retention

`keepLines` reads a listing once and carries one bit along. Two other readings are compared with it.
`walk` reads in two loops: the outer one judges single lines, and behind a location of the target the inner
one takes the block of that location. `Kept` says of one position alone whether its line stays, by the header
closest above. All three agree (`walk_eq_keepLines`, `keepLines_eq_keptLines`).
-/

namespace DisasmLens.Listing

/-! ### Headers -/

/-- A header begins or ends a block: it is a label or a location. -/
def isHeader (line : Text) : Bool := LineKind.of line = .label || LineKind.of line = .text

def opensBlock (target line : Text) : Bool := LineKind.of line = .text && Text.hasPart target line

def lastHeader? (above : List Text) : Option Text := above.reverse.find? isHeader

/-- Whether lines leave off inside a block of the target. -/
def endsInside (target : Text) (above : List Text) : Bool :=
  (lastHeader? above).any (opensBlock target)

def IsNearestHeader (ls : List Text) (j : Nat) (header : Text) : Prop :=
  isHeader header = true ∧
    ∃ above between, ls.take j = above ++ header :: between ∧ ∀ line ∈ between, isHeader line = false

theorem lastHeader?_take_eq_some_iff {ls : List Text} {j : Nat} {header : Text} :
    lastHeader? (ls.take j) = some header ↔ IsNearestHeader ls j header := by
  simp only [lastHeader?, List.find?_eq_some_iff_append, IsNearestHeader]
  constructor
  · rintro ⟨hh, after, before, he, hn⟩
    refine ⟨hh, before.reverse, after.reverse, ?_, ?_⟩
    · have hr := congrArg List.reverse he
      simpa using hr
    · intro line hl
      simpa using hn line (List.mem_reverse.mp hl)
  · rintro ⟨hh, above, between, he, hn⟩
    refine ⟨hh, between.reverse, above.reverse, ?_, ?_⟩
    · rw [he]
      simp
    · intro line hl
      simpa using hn line (List.mem_reverse.mp hl)

theorem endsInside_take_iff {target : Text} {ls : List Text} {j : Nat} :
    endsInside target (ls.take j) = true ↔
      ∃ header, IsNearestHeader ls j header ∧ LineKind.of header = .text ∧ target <:+: header := by
  simp only [endsInside, Option.any_eq_true, ← lastHeader?_take_eq_some_iff, opensBlock,
    Bool.and_eq_true, decide_eq_true_eq, Text.hasPart_iff]

theorem endsInside_nil (target : Text) : endsInside target [] = false := rfl

/-- One more line: a header settles the question anew, and any other line leaves it. -/
theorem endsInside_concat (target : Text) (above : List Text) (line : Text) :
    endsInside target (above ++ [line]) =
      if isHeader line then opensBlock target line else endsInside target above := by
  simp only [endsInside, lastHeader?, List.reverse_append, List.reverse_singleton,
    List.singleton_append, List.find?_cons]
  cases isHeader line <;> rfl

/-! ### The law -/

def keeps (target : Text) (above : List Text) (line : Text) (below : List Text) : Bool :=
  match LineKind.of line with
  | .empty | .label => true
  | .text => Text.hasPart target line
  | .instruction => endsInside target above && below ≠ []

/-- The line at a position is kept: an empty line and a label always, a location of the target, and an
instruction that is not the last line and whose nearest header is a location of the target. -/
def Kept (target : Text) (ls : List Text) (j : Nat) : Prop :=
  ∃ line, ls[j]? = some line ∧
    match LineKind.of line with
    | .empty | .label => True
    | .text => target <:+: line
    | .instruction =>
      j + 1 < ls.length ∧
        ∃ header, IsNearestHeader ls j header ∧ LineKind.of header = .text ∧ target <:+: header

theorem kept_iff (target : Text) (above : List Text) (line : Text) (below : List Text) :
    Kept target (above ++ line :: below) above.length ↔ keeps target above line below = true := by
  have hline : (above ++ line :: below)[above.length]? = some line := by simp
  have habove : (above ++ line :: below).take above.length = above := by simp
  have hlast : above.length + 1 < (above ++ line :: below).length ↔ below ≠ [] := by
    cases below <;> simp
  simp only [Kept, hline, Option.some.injEq, exists_eq_left', keeps, ← endsInside_take_iff, habove,
    hlast]
  cases LineKind.of line <;> simp [Text.hasPart_iff, and_comm]

instance (target : Text) (ls : List Text) : DecidablePred (Kept target ls) := fun j =>
  if h : j < ls.length then
    decidable_of_iff (keeps target (ls.take j) ls[j] (ls.drop (j + 1)) = true) (by
      have hk := kept_iff target (ls.take j) ls[j] (ls.drop (j + 1))
      rw [List.getElem_cons_drop, List.take_append_drop, List.length_take_of_le (Nat.le_of_lt h)] at hk
      exact hk.symm)
  else
    isFalse (by
      rintro ⟨line, hl, -⟩
      exact h (List.getElem?_eq_some_iff.mp hl).1)

def keptLines (target : Text) (ls : List Text) : List Text :=
  ((List.range ls.length).filter fun j => Kept target ls j).filterMap fun j => ls[j]?

theorem keepLines_step (target : Text) (above : List Text) (line : Text) (below : List Text) :
    keepLines target (endsInside target above) (line :: below) =
      (if keeps target above line below then [line] else []) ++
        keepLines target (endsInside target (above ++ [line])) below := by
  rw [endsInside_concat]
  cases hk : LineKind.of line with
  | empty => simp [keepLines, keeps, isHeader, hk]
  | label => simp [keepLines, keeps, isHeader, opensBlock, hk]
  | text => cases hp : Text.hasPart target line <;> simp [keepLines, keeps, isHeader, opensBlock, hk, hp]
  | instruction =>
    cases hi : endsInside target above <;> cases below <;> simp [keepLines, keeps, isHeader, hk, hi]

theorem keepLines_below (target : Text) (above below : List Text) :
    keepLines target (endsInside target above) below =
      ((List.range' above.length below.length).filter fun j => Kept target (above ++ below) j).filterMap
        fun j => (above ++ below)[j]? := by
  -- one line at a time moves from those below to those above, so that the bit stays that of the lines above
  induction below generalizing above with
  | nil => rfl
  | cons line below ih =>
    have hrest := ih (above ++ [line])
    rw [List.append_assoc, List.singleton_append, List.length_append, List.length_singleton] at hrest
    have hline : (above ++ line :: below)[above.length]? = some line := by simp
    rw [keepLines_step, hrest, List.length_cons, List.range'_succ, List.filter_cons]
    simp only [kept_iff, decide_eq_true_eq]
    split
    · simp only [List.filterMap_cons, hline, List.singleton_append]
    · simp only [List.nil_append]

theorem keepLines_eq_keptLines (target : Text) (ls : List Text) :
    keepLines target false ls = keptLines target ls := by
  have h := keepLines_below target [] ls
  rw [endsInside_nil, List.nil_append, List.length_nil] at h
  rw [h, keptLines, List.range_eq_range']

example :
    keptLines "a.jai".toList (["a.jai:1", "  mov", "b.jai:7", "  nop", "a.jai:2", "  ret"].map String.toList)
      = ["a.jai:1", "  mov", "a.jai:2"].map String.toList := by decide

/-! ### Two loops -/

/-- How many of the lines below a header the inner loop takes: those before the next label and the next other
location. It leaves the last line alone. -/
def blockLength (header : Text) : List Text → Nat
  | line :: next :: rest =>
    if LineKind.of line = .label ∨ (LineKind.of line = .text ∧ line ≠ header) then 0
    else blockLength header (next :: rest) + 1
  | _ => 0

def walk (target : Text) : List Text → List Text
  | [] => []
  | line :: rest =>
    match LineKind.of line with
    | .empty | .label => line :: walk target rest
    | .text =>
      if Text.hasPart target line then
        line :: (rest.take (blockLength line rest) ++ walk target (rest.drop (blockLength line rest)))
      else walk target rest
    | .instruction => walk target rest
termination_by ls => ls.length
decreasing_by all_goals simp only [List.length_cons, List.length_drop]; omega

/-- The bit is of no account before a line that is no instruction, and before the last line. -/
theorem keepLines_bit (target line : Text) (rest : List Text)
    (h : LineKind.of line = .label ∨ LineKind.of line = .text ∨ rest = []) (inside : Bool) :
    keepLines target inside (line :: rest) = keepLines target false (line :: rest) := by
  cases hk : LineKind.of line with
  | empty =>
    rcases h with h | h | h
    · simp [hk] at h
    · simp [hk] at h
    · simp [keepLines, hk, h]
  | label => simp [keepLines, hk]
  | text => simp [keepLines, hk]
  | instruction =>
    rcases h with h | h | h
    · simp [hk] at h
    · simp [hk] at h
    · simp [keepLines, hk, h]

/-- Behind a location of the target the reading keeps the block whole and goes on as after any other line. -/
theorem keepLines_block {target header : Text} (hp : Text.hasPart target header = true)
    (rest : List Text) :
    keepLines target true rest =
      rest.take (blockLength header rest) ++
        keepLines target false (rest.drop (blockLength header rest)) := by
  induction rest with
  | nil => rfl
  | cons line rest ih =>
    cases rest with
    | nil =>
      simp only [blockLength, List.take_zero, List.nil_append, List.drop_zero]
      exact keepLines_bit target line [] (.inr (.inr rfl)) true
    | cons next rest =>
      by_cases hstop : LineKind.of line = .label ∨ (LineKind.of line = .text ∧ line ≠ header)
      · simp only [blockLength, if_pos hstop, List.take_zero, List.nil_append, List.drop_zero]
        exact keepLines_bit target line (next :: rest) (hstop.imp_right fun h => .inl h.1) true
      · have hkept : keepLines target true (line :: next :: rest) =
            line :: keepLines target true (next :: rest) := by
          rw [not_or, not_and, Decidable.not_not] at hstop
          cases hk : LineKind.of line with
          | empty => simp only [keepLines, hk]
          | label => exact absurd hk hstop.1
          | text => rw [keepLines, hk, hstop.2 hk]; simp only [hp, if_true]
          | instruction => rw [keepLines, hk]; simp
        rw [hkept, ih]
        simp only [blockLength, if_neg hstop, List.take_succ_cons, List.drop_succ_cons,
          List.cons_append]

theorem walk_eq_keepLines (target : Text) (ls : List Text) :
    walk target ls = keepLines target false ls := by
  -- the outer loop goes on behind a block, where the bit is off again
  fun_induction walk target ls with
  | case1 => rfl
  | case2 line rest hk ih => simp only [keepLines, hk, ih]
  | case3 line rest hk ih => simp only [keepLines, hk, ih]
  | case4 line rest hk hp ih => simp only [keepLines, hk, hp, if_true, keepLines_block hp rest, ih]
  | case5 line rest hk hp ih => simp only [keepLines, hk, hp, Bool.false_eq_true, if_false, ih]
  | case6 line rest hk ih => simp [keepLines, hk, ih]

/-- What is kept of a listing, by two loops and by the law for its lines. -/
theorem retain_eq_unlines_keptLines (target listing : Text) :
    retain target listing = Text.unlines (walk target listing.lines) ∧
      walk target listing.lines = keptLines target listing.lines := by
  rw [walk_eq_keepLines]
  exact ⟨rfl, keepLines_eq_keptLines target listing.lines⟩

end DisasmLens.Listing
