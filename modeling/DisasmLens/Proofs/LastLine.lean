import DisasmLens.Proofs.RetentionLaw
import DisasmLens.Session

/-!
# The warning about the last line

A listing that ends in a label is warned about, once, and no other listing is. Only the outer of the two loops warns, and
it warns of a label that it comes to when no line is left. The inner loop never takes the last line, whatever blocks are
open before, so the last line is always left for the outer one (`Listing.run_walkLogged`).
-/

namespace DisasmLens

def Host.logged (h : Host) (records : List LogRecord) : Host :=
  { h with journal.logs := h.journal.logs ++ records.filter fun r => h.threshold.weight ≤ r.level.weight }

theorem Host.logged_nil (h : Host) : h.logged [] = h := by
  simp only [logged, List.filter_nil, List.append_nil]

theorem run_log (level : Level) (origin : Origin) (message : Text) (h : Host) :
    (log level origin message).run h = ((), h.logged [⟨level, origin, message⟩]) := by
  show ((), if h.threshold.weight ≤ level.weight then _ else h) = _
  by_cases hl : h.threshold.weight ≤ level.weight
  · simp only [Host.logged, List.filter_cons, List.filter_nil, hl, decide_true, if_true]
  · simp only [Host.logged, List.filter_cons, List.filter_nil, hl, decide_false, Bool.false_eq_true, if_false,
      List.append_nil]

namespace Listing

/-! ### The last line -/

theorem danglingLabel?_eq (ls : List Text) : danglingLabel? ls = ls.getLast?.filter (LineKind.of · = .label) := by
  induction ls with
  | nil => rfl
  | cons line rest ih =>
    cases rest with
    | nil => simp only [danglingLabel?, List.getLast?_singleton, Option.filter_some, decide_eq_true_eq]
    | cons next rest => rw [danglingLabel?, ih, List.getLast?_cons_cons]

theorem danglingLabel?_cons {rest : List Text} (h : rest ≠ []) (line : Text) :
    danglingLabel? (line :: rest) = danglingLabel? rest := by
  rw [danglingLabel?_eq, danglingLabel?_eq, List.getLast?_cons_of_ne_nil h]

theorem danglingLabel?_singleton (line : Text) :
    danglingLabel? [line] = if LineKind.of line = .label then some line else none := rfl

theorem danglingLabel?_cons_of_ne_label {line : Text} (h : LineKind.of line ≠ .label) (rest : List Text) :
    danglingLabel? (line :: rest) = danglingLabel? rest := by
  by_cases hr : rest = []
  · rw [hr, danglingLabel?_singleton, if_neg h]
    rfl
  · exact danglingLabel?_cons hr line

theorem danglingLabel?_drop {n : Nat} {ls : List Text} (h : n < ls.length) :
    danglingLabel? (ls.drop n) = danglingLabel? ls := by
  rw [danglingLabel?_eq, danglingLabel?_eq, List.getLast?_drop, if_neg (Nat.not_le.mpr h)]

/-! ### What the loops log -/

def labelWarning (line : Text) : LogRecord :=
  ⟨.warning, .listing, "label on last line of objdump output is unexpected: " ++ Quoted.ofText line⟩

def warn (line : Text) : Action Unit := log .warning .listing (labelWarning line).message

theorem run_warn (line : Text) (h : Host) : (warn line).run h = ((), h.logged [labelWarning line]) := run_log ..

def walkLogged (target : Text) : List Text → Action (List Text)
  | [] => return []
  | line :: rest =>
    match LineKind.of line with
    | .empty => return line :: (← walkLogged target rest)
    | .label => do
      if rest = [] then warn line
      return line :: (← walkLogged target rest)
    | .text =>
      if Text.hasPart target line then
        return line ::
          (rest.take (blockLength line rest) ++ (← walkLogged target (rest.drop (blockLength line rest))))
      else walkLogged target rest
    | .instruction => walkLogged target rest
termination_by ls => ls.length
decreasing_by all_goals simp only [List.length_cons, List.length_drop]; omega

theorem blockLength_lt {rest : List Text} (h : rest ≠ []) (header : Text) : blockLength header rest < rest.length := by
  induction rest with
  | nil => exact absurd rfl h
  | cons line rest ih =>
    cases rest with
    | nil => exact Nat.zero_lt_one
    | cons next rest =>
      unfold blockLength
      split
      · exact Nat.zero_lt_succ _
      · exact Nat.succ_lt_succ (ih (List.cons_ne_nil next rest))

/-- Behind the block that the inner loop takes the last line is still to come. -/
theorem danglingLabel?_drop_blockLength (header : Text) (rest : List Text) :
    danglingLabel? (rest.drop (blockLength header rest)) = danglingLabel? rest := by
  by_cases h : rest = []
  · rw [h, List.drop_nil]
  · exact danglingLabel?_drop (blockLength_lt h header)

def warnings (ls : List Text) : List LogRecord := (danglingLabel? ls).toList.map labelWarning

theorem warnings_cons {rest : List Text} (h : rest ≠ []) (line : Text) : warnings (line :: rest) = warnings rest := by
  rw [warnings, danglingLabel?_cons h, ← warnings]

theorem warnings_cons_of_kind {line : Text} {k : LineKind} (hk : LineKind.of line = k) (hne : k ≠ .label)
    (rest : List Text) : warnings (line :: rest) = warnings rest := by
  rw [warnings, danglingLabel?_cons_of_ne_label (hk ▸ hne), ← warnings]

/-- The walk keeps what it keeps without logging, and logs what there is to say about the last line. -/
theorem run_walkLogged (target : Text) (ls : List Text) (h : Host) :
    (walkLogged target ls).run h = (walk target ls, h.logged (warnings ls)) := by
  have hend (h : Host) : (walkLogged target []).run h = ([], h) := by rw [walkLogged, Action.run_pure]
  fun_induction walk target ls with
  | case1 =>
    rw [hend]
    exact congrArg _ h.logged_nil.symm
  | case2 line rest hk ih =>
    simp only [walkLogged, hk]
    rw [Action.run_bind, ih, Action.run_pure, warnings_cons_of_kind hk (by decide)]
  | case3 line rest hk ih =>
    simp only [walkLogged, hk]
    by_cases hr : rest = []
    · subst hr
      rw [if_pos rfl, Action.run_bind, run_warn, Action.run_bind, hend, Action.run_pure, walk, warnings,
        danglingLabel?_singleton, if_pos hk]
      rfl
    · rw [if_neg hr, Action.run_bind, ih, Action.run_pure, warnings_cons hr]
  | case4 line rest hk hp ih =>
    -- The inner loop logs nothing, and the walk goes on before the last line.
    simp only [walkLogged, hk, hp, if_true]
    rw [Action.run_bind, ih, Action.run_pure, warnings_cons_of_kind hk (by decide), warnings,
      danglingLabel?_drop_blockLength, ← warnings]
  | case5 line rest hk hp ih =>
    simp only [walkLogged, hk, hp, Bool.false_eq_true, if_false]
    rw [ih, warnings_cons_of_kind hk (by decide)]
  | case6 line rest hk ih =>
    simp only [walkLogged, hk]
    rw [ih, warnings_cons_of_kind hk (by decide)]

/-! ### The filter -/

theorem run_processLogged (target whole : Text) (h : Host) :
    (processLogged target whole).run h = (process target whole, h.logged (warnings whole.lines)) := by
  unfold processLogged warnings
  cases danglingLabel? whole.lines with
  | none => exact congrArg _ h.logged_nil.symm
  | some line =>
    show (warn line >>= fun _ => pure (process target whole)).run h = _
    rw [Action.run_bind, run_warn]
    rfl

theorem warnings_lines (t : Text) :
    warnings t.lines =
      if LineKind.of (t.lines.getLast t.lines_ne_nil) = .label then [labelWarning (t.lines.getLast t.lines_ne_nil)]
      else [] := by
  rw [warnings, danglingLabel?_eq, List.getLast?_eq_some_getLast t.lines_ne_nil, Option.filter_some]
  by_cases hk : LineKind.of (t.lines.getLast t.lines_ne_nil) = .label
  · simp only [hk, decide_true, if_true]
    rfl
  · simp only [hk, decide_false, Bool.false_eq_true, if_false]
    rfl

/-- Filtering a listing logs one warning, with the last line in it, if the last line is a label, and nothing if it is
not. It changes nothing else of the host. The walk in two loops logs the same and keeps the same. -/
theorem snd_processLogged (target whole : Text) (h : Host) :
    let last := whole.lines.getLast whole.lines_ne_nil
    let after := h.logged (if LineKind.of last = .label then [labelWarning last] else [])
    ((processLogged target whole).run h).2 = after ∧ ((walkLogged target whole.lines).run h).2 = after ∧
      ((processLogged target whole).run h).1.1 = Text.unlines ((walkLogged target whole.lines).run h).1 := by
  intro last after
  have hafter : h.logged (warnings whole.lines) = after := congrArg h.logged (warnings_lines whole)
  rw [run_processLogged, run_walkLogged, hafter, walk_eq_keepLines]
  exact ⟨rfl, rfl, rfl⟩

example :
    warnings (Text.lines "/work/x.jai:1\n  1: push\nf():") = [labelWarning "f():"] ∧
      warnings (Text.lines "f():\n/work/x.jai:1\n  1: push") = [] := by
  decide +kernel

end Listing

end DisasmLens
