import DisasmLens.Text.Basic
import DisasmLens.Text.CodeRange

/-!
# Blank characters

The white space of Unicode, with the four separators `0x1C` to `0x1F`. Blanks may be stripped from both ends
of a text, which then starts with the first character of the text that is not blank (`Text.head?_strip`).
-/

namespace DisasmLens.Text

def blankRanges : List (Nat × Nat) :=
  [(0x85, 0x85), (0xA0, 0xA0), (0x1680, 0x1680), (0x2000, 0x200A), (0x2028, 0x2029), (0x202F, 0x202F),
  (0x205F, 0x205F), (0x3000, 0x3000)]

def isBlank (c : Char) : Bool :=
  let n := c.toNat
  if n < 0x80 then (0x09 ≤ n && n ≤ 0x0D) || (0x1C ≤ n && n ≤ 0x20) else inRanges blankRanges n

def stripLeft (t : List Char) : List Char := t.dropWhile isBlank

def stripRight (t : List Char) : List Char := (t.reverse.dropWhile isBlank).reverse

def strip (t : List Char) : List Char := stripRight (stripLeft t)

theorem strip_eq_self {t : List Char} (hl : ∀ c ∈ t.head?, isBlank c = false)
    (hr : ∀ c ∈ t.reverse.head?, isBlank c = false) : strip t = t := by
  have hdrop {u : List Char} (hu : ∀ c ∈ u.head?, isBlank c = false) : u.dropWhile isBlank = u := by
    cases u with
    | nil => rfl
    | cons c u => simp [hu c rfl]
  rw [strip, stripLeft, hdrop hl, stripRight, hdrop hr, List.reverse_reverse]

/-- Blanks are all that is stripped, and what is left does not start with one. -/
theorem exists_append_strip (t : Text) :
    ∃ front back, t = front ++ (strip t ++ back) ∧ (∀ c ∈ front, isBlank c = true) ∧
      (∀ c ∈ back, isBlank c = true) ∧ ∀ c ∈ (strip t).head?, isBlank c = false := by
  have hleft : t = t.takeWhile isBlank ++ stripLeft t := List.takeWhile_append_dropWhile.symm
  have hright : stripLeft t = strip t ++ ((stripLeft t).reverse.takeWhile isBlank).reverse := by
    rw [strip, stripRight, ← List.reverse_append, List.takeWhile_append_dropWhile, List.reverse_reverse]
  refine ⟨t.takeWhile isBlank, ((stripLeft t).reverse.takeWhile isBlank).reverse, hleft.trans (congrArg _ hright),
    List.all_eq_true.mp List.all_takeWhile, fun c hc => ?_, fun c hc => ?_⟩
  · exact List.all_eq_true.mp List.all_takeWhile c (List.mem_reverse.mp hc)
  · have hhead : (stripLeft t).head? = some c := by
      rw [hright, List.head?_append, Option.mem_def.mp hc, Option.some_or]
    exact eq_false_of_mem_head?_dropWhile hhead

/-- A stripped text starts with the first character that is not blank. -/
theorem head?_strip (t : Text) : (strip t).head? = t.find? fun c => !isBlank c := by
  obtain ⟨front, back, ht, hfront, hback, hhead⟩ := exists_append_strip t
  have hnone {cs : Text} (h : ∀ c ∈ cs, isBlank c = true) : (cs.find? fun c => !isBlank c) = none := by
    simpa only [List.find?_eq_none, Bool.not_eq_true', Bool.not_eq_false] using h
  have hfind : (t.find? fun c => !isBlank c) = (strip t).find? fun c => !isBlank c := by
    refine (congrArg (List.find? _) ht).trans ?_
    rw [List.find?_append, List.find?_append, hnone hfront, hnone hback, Option.none_or, Option.or_none]
  rw [hfind]
  cases hs : strip t with
  | nil => rfl
  | cons c rest =>
    rw [hs] at hhead
    have hc : isBlank c = false := hhead c rfl
    simp only [List.head?_cons, List.find?_cons, hc, Bool.not_false]

theorem strip_eq_nil_iff {t : Text} : strip t = [] ↔ ∀ c ∈ t, isBlank c = true := by
  rw [← List.head?_eq_none_iff, head?_strip, List.find?_eq_none]
  simp only [Bool.not_eq_true', Bool.not_eq_false]

example : strip [' ', 'a', ' ', 'b', '\n'] = ['a', ' ', 'b'] := by decide

end DisasmLens.Text
