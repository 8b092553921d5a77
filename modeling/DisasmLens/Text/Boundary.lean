import DisasmLens.Text.Basic

/-!
# Line boundaries

A file's text is cut into lines at every line boundary of Unicode, not at line feeds alone. A boundary ends
a line, so nothing follows a boundary at the end, and the empty text has no line.

A text that is edited or shown by the line has one line end throughout (`Text.uniformLines`).
-/

namespace DisasmLens.Text

/-- Whether a character ends a line. A carriage return takes a line feed after it along. -/
def isBoundary (c : Char) : Bool :=
  let n := c.toNat
  (0x0A ≤ n && n ≤ 0x0D) || (0x1C ≤ n && n ≤ 0x1E) || n = 0x85 || n = 0x2028 || n = 0x2029

def boundaryLines : Text → List Text
  | [] => []
  | '\r' :: '\n' :: rest => [] :: boundaryLines rest
  | c :: rest =>
    if isBoundary c then [] :: boundaryLines rest
    else
      match boundaryLines rest with
      | [] => [[c]]
      | line :: ls => (c :: line) :: ls

/-- The first line of a text is all of it in front of the first boundary. The empty text alone has no line. -/
theorem head?_boundaryLines (t : Text) :
    (boundaryLines t).head? = if t = [] then none else some (t.takeWhile fun c => !isBoundary c) := by
  fun_induction boundaryLines t with
  | case1 => rfl
  | case2 rest ih => rfl
  | case3 c rest _ hc ih =>
    rw [if_neg (List.cons_ne_nil c rest), List.takeWhile_cons_of_neg (by rw [hc]; decide)]
    rfl
  | case4 c rest _ hc hnil ih =>
    have hrest : rest = [] := by
      rw [hnil, List.head?_nil] at ih
      split at ih
      · assumption
      · cases ih
    rw [hrest, if_neg (List.cons_ne_nil c []), List.takeWhile_cons_of_pos (by rw [Bool.eq_false_iff.mpr hc]; rfl)]
    rfl
  | case5 c rest _ hc line ls hls ih =>
    rw [hls, List.head?_cons] at ih
    split at ih
    · cases ih
    · rw [if_neg (List.cons_ne_nil c rest), List.takeWhile_cons_of_pos (by rw [Bool.eq_false_iff.mpr hc]; rfl),
        ← Option.some.inj ih]
      rfl

/-- Turns each carriage return, with a line feed after it or without, into a line feed. -/
def normalizeNewlines : Text → Text
  | [] => []
  | '\r' :: '\n' :: rest => '\n' :: normalizeNewlines rest
  | c :: rest => (if c = '\r' then '\n' else c) :: normalizeNewlines rest

theorem normalizeNewlines_eq_self {t : Text} (h : '\r' ∉ t) : normalizeNewlines t = t := by
  induction t with
  | nil => rfl
  | cons c t ih =>
    rw [List.mem_cons, not_or] at h
    have hc : c ≠ '\r' := Ne.symm h.1
    rw [normalizeNewlines, if_neg hc, ih h.2]
    intro _ he
    exact absurd he hc

/-- The line end that a text uses: carriage return and line feed, a line feed, or a carriage return, the first
of these that occurs. -/
def lineEnd (t : Text) : Text :=
  if hasPart ['\r', '\n'] t then ['\r', '\n'] else if '\n' ∉ t ∧ '\r' ∈ t then ['\r'] else ['\n']

def endsInLineEnd (t : Text) : Bool := t.getLast? = some '\n' || t.getLast? = some '\r'

/-- A text with its own line end at each of its line boundaries. A boundary of another kind at the very end is
dropped. -/
def uniformLines (t : Text) : Text :=
  joinWith (lineEnd t) (boundaryLines t ++ if endsInLineEnd t then [[]] else [])

example : uniformLines ['a', '\x0c', 'b', '\r', 'c', '\x0c'] = ['a', '\r', 'b', '\r', 'c'] := by decide

example : boundaryLines ['a', '\r', '\n', 'b', '\n', '\n'] = [['a'], ['b'], []] := by decide

end DisasmLens.Text
