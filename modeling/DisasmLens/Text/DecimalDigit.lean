import DisasmLens.Text.Basic
import DisasmLens.Text.Blank

/-!
# Decimal digits of all scripts

Unicode 14 lays the digits of each script out in order from zero to nine, so the value of a digit is its
distance from the start of its range, modulo ten. A numeral that is read has at most `maxDigits` digits.
-/

namespace DisasmLens.Text

/-- The ranges of decimal digits outside ASCII. Each starts at a zero. -/
def digitRanges : List (Nat × Nat) :=
  [(0x660, 0x669), (0x6F0, 0x6F9), (0x7C0, 0x7C9), (0x966, 0x96F), (0x9E6, 0x9EF), (0xA66, 0xA6F),
  (0xAE6, 0xAEF), (0xB66, 0xB6F), (0xBE6, 0xBEF), (0xC66, 0xC6F), (0xCE6, 0xCEF), (0xD66, 0xD6F),
  (0xDE6, 0xDEF), (0xE50, 0xE59), (0xED0, 0xED9), (0xF20, 0xF29), (0x1040, 0x1049),
  (0x1090, 0x1099), (0x17E0, 0x17E9), (0x1810, 0x1819), (0x1946, 0x194F), (0x19D0, 0x19D9),
  (0x1A80, 0x1A89), (0x1A90, 0x1A99), (0x1B50, 0x1B59), (0x1BB0, 0x1BB9), (0x1C40, 0x1C49),
  (0x1C50, 0x1C59), (0xA620, 0xA629), (0xA8D0, 0xA8D9), (0xA900, 0xA909), (0xA9D0, 0xA9D9),
  (0xA9F0, 0xA9F9), (0xAA50, 0xAA59), (0xABF0, 0xABF9), (0xFF10, 0xFF19), (0x104A0, 0x104A9),
  (0x10D30, 0x10D39), (0x11066, 0x1106F), (0x110F0, 0x110F9), (0x11136, 0x1113F),
  (0x111D0, 0x111D9), (0x112F0, 0x112F9), (0x11450, 0x11459), (0x114D0, 0x114D9),
  (0x11650, 0x11659), (0x116C0, 0x116C9), (0x11730, 0x11739), (0x118E0, 0x118E9),
  (0x11950, 0x11959), (0x11C50, 0x11C59), (0x11D50, 0x11D59), (0x11DA0, 0x11DA9),
  (0x16A60, 0x16A69), (0x16AC0, 0x16AC9), (0x16B50, 0x16B59), (0x1D7CE, 0x1D7FF),
  (0x1E140, 0x1E149), (0x1E2F0, 0x1E2F9), (0x1E950, 0x1E959), (0x1FBF0, 0x1FBF9)]

def digitValue? (c : Char) : Option Nat :=
  let n := c.toNat
  if n < 0x80 then if '0' ≤ c ∧ c ≤ '9' then some (n - '0'.toNat) else none
  else (digitRanges.find? fun (first, last) => first ≤ n && n ≤ last).map fun r => (n - r.1) % 10

def isDecimalDigit (c : Char) : Bool := (digitValue? c).isSome

/-- The number that a run of decimal digits writes; other characters count as zeros. -/
def digitsValue (ds : List Char) : Nat := ds.foldl (fun n d => n * 10 + (digitValue? d).getD 0) 0

def maxDigits : Nat := 4300

structure LongNumeral where
  digits : Nat
deriving DecidableEq, Repr

def boundedValue (ds : List Char) : Except LongNumeral Nat :=
  if maxDigits < ds.length then .error ⟨ds.length⟩ else .ok (digitsValue ds)

theorem digitValue?_of_isDigit {c : Char} (h : c.isDigit = true) :
    digitValue? c = some (c.toNat - '0'.toNat) := by
  simp only [Char.isDigit, Bool.and_eq_true, decide_eq_true_eq] at h
  have hrange : '0' ≤ c ∧ c ≤ '9' := h
  have hnine : c.toNat ≤ 57 := hrange.2
  have hascii : c.toNat < 0x80 := by omega
  simp only [digitValue?, hascii, hrange, and_self, if_true]

theorem isDecimalDigit_of_isDigit {c : Char} (h : c.isDigit = true) : isDecimalDigit c = true := by
  rw [isDecimalDigit, digitValue?_of_isDigit h, Option.isSome_some]

theorem isDigit_of_mem_decimal {n : Nat} {c : Char} (h : c ∈ decimal n) : c.isDigit = true :=
  Nat.isDigit_of_mem_toDigits (by decide) (by decide) h

theorem isDecimalDigit_of_isBlank {c : Char} (h : isBlank c = true) : isDecimalDigit c = false := by
  by_cases hascii : c.toNat < 0x80
  · have hdigit : ¬('0' ≤ c ∧ c ≤ '9') := by
      rintro ⟨hzero, hnine⟩
      have hzero' : 48 ≤ c.toNat := hzero
      have hnine' : c.toNat ≤ 57 := hnine
      simp only [isBlank, hascii, if_true, Bool.or_eq_true, Bool.and_eq_true, decide_eq_true_eq] at h
      omega
    simp only [isDecimalDigit, digitValue?, hascii, hdigit, if_true, if_false, Option.isSome_none]
  · have hapart : ∀ b ∈ blankRanges, ∀ d ∈ digitRanges, d.2 < b.1 ∨ b.2 < d.1 := by decide
    simp only [isBlank, hascii, if_false, inRanges_eq_true_iff] at h
    obtain ⟨b, hb, hfirst, hlast⟩ := h
    have hnone : digitRanges.find? (fun (first, last) => first ≤ c.toNat && c.toNat ≤ last) = none := by
      rw [List.find?_eq_none]
      intro d hd
      have hbd := hapart b hb d hd
      simp only [Bool.and_eq_true, decide_eq_true_eq]
      omega
    simp only [isDecimalDigit, digitValue?, hascii, if_false, hnone, Option.map_none, Option.isSome_none]

theorem digitsValue_decimal (n : Nat) : digitsValue (decimal n) = n := by
  have hfold (ds : List Char) (hd : ∀ d ∈ ds, d.isDigit = true) (m : Nat) :
      ds.foldl (fun n d => n * 10 + (digitValue? d).getD 0) m = Nat.ofDigitChars 10 ds m := by
    induction ds generalizing m with
    | nil => rfl
    | cons d ds ih =>
      rw [List.forall_mem_cons] at hd
      rw [List.foldl_cons, ih hd.2, Nat.ofDigitChars_cons, digitValue?_of_isDigit hd.1, Nat.mul_comm]
      rfl
  rw [digitsValue, hfold _ (fun _ => isDigit_of_mem_decimal), decimal, Nat.ofDigitChars_ten_toDigits]

theorem boundedValue_decimal {n : Nat} (h : (decimal n).length ≤ maxDigits) :
    boundedValue (decimal n) = .ok n := by
  rw [boundedValue, if_neg (Nat.not_lt.mpr h), digitsValue_decimal]

theorem head?_decimal {n : Nat} (h : 0 < n) : (decimal n).head? ≠ some '0' := by
  unfold decimal
  induction n using Nat.strongRecOn with
  | ind n ih =>
    by_cases hn : n < 10
    · rw [Nat.toDigits_of_lt_base hn, List.head?_cons, ne_eq, Option.some_inj, Nat.digitChar_eq_zero]
      omega
    · have hhead := ih (n / 10) (by omega) (by omega)
      rw [Nat.toDigits_of_base_le (by decide) (by omega)]
      cases hd : Nat.toDigits 10 (n / 10) with
      | nil => exact absurd hd Nat.toDigits_ne_nil
      | cons d ds =>
        rw [hd] at hhead
        exact hhead

example : digitsValue ['0', '4', '२'] = 42 := by decide +kernel

end DisasmLens.Text
