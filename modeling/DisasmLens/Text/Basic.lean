/-!
# Text

A text is a list of code points, so that reading one is recursion on a list. This file holds the type,
its lines, and the decimal numerals.

A text always has at least one line; `Text.lines` and `Text.unlines` are inverse to each other
(`Text.unlines_lines`, `Text.lines_unlines`).
-/

namespace DisasmLens

abbrev Text := List Char

instance : Coe String Text := ⟨String.toList⟩

namespace Text

/-! ### Lines -/

/-- The pieces of a text between its line feeds. A text without a line feed is its only line. -/
def lines (t : Text) : List Text := t.splitOn '\n'

def joinWith (between : Text) (pieces : List Text) : Text := between.intercalate pieces

def unlines (ls : List Text) : Text := joinWith ['\n'] ls

theorem lines_ne_nil (t : Text) : t.lines ≠ [] := List.splitOn_ne_nil '\n' t

@[simp] theorem unlines_lines (t : Text) : unlines t.lines = t := List.intercalate_splitOn '\n'

theorem not_mem_of_mem_splitOn {separator : Char} {t piece : Text} (h : piece ∈ t.splitOn separator) :
    separator ∉ piece := by
  induction t generalizing piece with
  | nil =>
    rw [List.splitOn_nil, List.mem_singleton] at h
    rw [h]
    exact List.not_mem_nil
  | cons c t ih =>
    rw [List.splitOn_cons_eq_if_modifyHead] at h
    cases hls : t.splitOn separator with
    | nil => exact absurd hls (List.splitOn_ne_nil separator t)
    | cons first rest =>
      rw [hls] at ih h
      by_cases hc : c = separator
      · simp only [hc, beq_self_eq_true, if_true, List.mem_cons] at h
        rcases h with h | h
        · rw [h]
          exact List.not_mem_nil
        · exact ih (List.mem_cons.mpr h)
      · simp only [beq_eq_false_iff_ne.mpr hc, Bool.false_eq_true, if_false, List.modifyHead_cons,
          List.mem_cons] at h
        rcases h with h | h
        · rw [h, List.mem_cons, not_or]
          exact ⟨Ne.symm hc, ih List.mem_cons_self⟩
        · exact ih (List.mem_cons_of_mem _ h)

theorem not_mem_of_mem_lines {t line : Text} (h : line ∈ t.lines) : '\n' ∉ line := not_mem_of_mem_splitOn h

/-- Lines that hold no line feed are read back from their joined text. -/
theorem lines_unlines {ls : List Text} (h : ∀ l ∈ ls, '\n' ∉ l) (ne : ls ≠ []) :
    (unlines ls).lines = ls :=
  List.splitOn_intercalate '\n' h ne

theorem lines_append (t u : Text) : lines (t ++ '\n' :: u) = t.lines ++ u.lines :=
  List.splitOn_append_cons_self t u

theorem mem_joinWith {between : Text} {pieces : List Text} {c : Char} (h : c ∈ joinWith between pieces) :
    c ∈ between ∨ ∃ piece ∈ pieces, c ∈ piece := by
  induction pieces with
  | nil => exact absurd h List.not_mem_nil
  | cons piece pieces ih =>
    by_cases hp : pieces = []
    · subst hp
      rw [joinWith, List.intercalate_singleton] at h
      exact .inr ⟨piece, List.mem_cons_self, h⟩
    · rw [joinWith, List.intercalate_cons_of_ne_nil hp, List.append_assoc, List.mem_append, List.mem_append] at h
      rcases h with h | h | h
      · exact .inr ⟨piece, List.mem_cons_self, h⟩
      · exact .inl h
      · exact (ih h).imp_right fun ⟨p, hp, hc⟩ => ⟨p, List.mem_cons_of_mem _ hp, hc⟩

theorem unlines_singleton (line : Text) : unlines [line] = line := by
  rw [unlines, joinWith, List.intercalate_singleton]

theorem unlines_cons {line : Text} {ls : List Text} (h : ls ≠ []) :
    unlines (line :: ls) = line ++ '\n' :: unlines ls := by
  rw [unlines, joinWith, List.intercalate_cons_of_ne_nil h, List.append_assoc, List.singleton_append]
  rfl

theorem unlines_append {above below : List Text} (ha : above ≠ []) (hb : below ≠ []) :
    unlines (above ++ below) = unlines above ++ '\n' :: unlines below := by
  induction above with
  | nil => exact absurd rfl ha
  | cons line above ih =>
    by_cases hn : above = []
    · rw [hn, List.singleton_append, unlines_cons hb, unlines_singleton]
    · rw [List.cons_append, unlines_cons (List.append_ne_nil_of_left_ne_nil hn below), ih hn,
        unlines_cons hn, List.append_assoc, List.cons_append]

/-! ### Parts -/

def hasPart (part : Text) : Text → Bool
  | [] => part.isPrefixOf []
  | c :: t => part.isPrefixOf (c :: t) || hasPart part t

theorem hasPart_iff {part t : Text} : hasPart part t = true ↔ part <:+: t := by
  induction t with
  | nil => simp only [hasPart, List.isPrefixOf_iff_prefix, List.prefix_nil, List.infix_nil]
  | cons c t ih =>
    simp only [hasPart, Bool.or_eq_true, List.isPrefixOf_iff_prefix, ih, List.infix_cons_iff]

/-! ### Leading characters of a class -/

theorem takeWhile_append_of_head? {p : Char → Bool} {cs rest : Text} (h : ∀ c ∈ cs, p c = true)
    (hr : ∀ c ∈ rest.head?, p c = false) : (cs ++ rest).takeWhile p = cs := by
  rw [List.takeWhile_append_of_pos h]
  cases rest with
  | nil => simp
  | cons c rest =>
    have hc : p c = false := hr c rfl
    simp [hc]

theorem dropWhile_append_of_head? {p : Char → Bool} {cs rest : Text} (h : ∀ c ∈ cs, p c = true)
    (hr : ∀ c ∈ rest.head?, p c = false) : (cs ++ rest).dropWhile p = rest := by
  rw [List.dropWhile_append_of_pos h]
  cases rest with
  | nil => rfl
  | cons c rest =>
    have hc : p c = false := hr c rfl
    simp [hc]

/-- What stands in front of the first occurrence of a character is determined. -/
theorem eq_of_append_cons {mark : Char} {s t u v : Text} (hs : mark ∉ s) (ht : mark ∉ t)
    (h : s ++ mark :: u = t ++ mark :: v) : s = t := by
  have hfront {s u : Text} (hs : mark ∉ s) : (s ++ mark :: u).takeWhile (· ≠ mark) = s := by
    refine takeWhile_append_of_head? (fun c hc => decide_eq_true fun he => hs (he ▸ hc)) fun c hc => ?_
    cases hc
    exact decide_eq_false fun hne => hne rfl
  rw [← hfront hs, h, hfront ht]

theorem drop_length_takeWhile (p : Char → Bool) (t : Text) : t.drop (t.takeWhile p).length = t.dropWhile p :=
  (congrArg (List.drop _) List.takeWhile_append_dropWhile.symm).trans List.drop_left

/-- What is left behind the leading characters of a class starts with another character. -/
theorem eq_false_of_mem_head?_dropWhile {p : Char → Bool} {t : Text} {c : Char} (h : c ∈ (t.dropWhile p).head?) :
    p c = false := by
  have hhead := List.head?_dropWhile_not p t
  rw [Option.mem_def.mp h] at hhead
  exact hhead

/-! ### Numerals -/

def decimal (n : Nat) : Text := Nat.toDigits 10 n

/-- The decimal numeral of an integer, with a minus sign before a negative one. -/
def decimalInt : Int → Text
  | .ofNat n => decimal n
  | .negSucc n => '-' :: decimal (n + 1)

/-- The value of a digit in base sixteen, in either case of letter. -/
def hexValue? (c : Char) : Option Nat :=
  if '0' ≤ c ∧ c ≤ '9' then some (c.toNat - '0'.toNat)
  else if 'a' ≤ c ∧ c ≤ 'f' then some (c.toNat - 'a'.toNat + 10)
  else if 'A' ≤ c ∧ c ≤ 'F' then some (c.toNat - 'A'.toNat + 10)
  else none

def hexDigit (n : Nat) : Char := Nat.digitChar (n % 16)

/-- The last `width` digits of a number in base sixteen. -/
def hexPadded (width n : Nat) : Text :=
  (List.range width).reverse.map fun i => hexDigit (n / Nat.pow 16 i)

theorem hexValue?_hexDigit (n : Nat) : hexValue? (hexDigit n) = some (n % 16) := by
  have hdigits : ∀ d < 16, hexValue? (Nat.digitChar d) = some d := by decide
  exact hdigits (n % 16) (Nat.mod_lt n (by decide))

example : decimalInt (-120) = "-120".toList := by decide

example : hexPadded 4 0x1f6 = "01f6".toList := by decide

end Text

end DisasmLens
