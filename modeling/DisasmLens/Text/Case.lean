import DisasmLens.Text.Basic
import DisasmLens.Text.Blank

/-!
# Letter case

Caseless comparison with ASCII words. Beyond the two ASCII cases, four characters compare equal to an ASCII
letter: the dotted capital and the dotless small `i`, the long `s` and the Kelvin sign. The small form of the
first is two characters, and the dotless and the long letter are small already.
-/

namespace DisasmLens.Text

/-- The small ASCII letter that a character compares equal to; other characters stay. -/
def foldChar (c : Char) : Char :=
  if c = 'İ' ∨ c = 'ı' then 'i' else if c = 'ſ' then 's' else if c = '\u212A' then 'k' else c.toLower

def foldCase (t : Text) : Text := t.map foldChar

theorem toLower_of_isBlank {c : Char} (h : isBlank c = true) : c.toLower = c := by
  have hcap : ¬(c.val ≥ 'A'.val ∧ c.val ≤ 'Z'.val) := by
    rintro ⟨hA, hZ⟩
    have hA' : 65 ≤ c.toNat := hA
    have hZ' : c.toNat ≤ 90 := hZ
    have hascii : c.toNat < 0x80 := by omega
    simp only [isBlank, hascii, if_true, Bool.or_eq_true, Bool.and_eq_true, decide_eq_true_eq] at h
    omega
  exact dif_neg hcap

theorem foldChar_of_isBlank {c : Char} (h : isBlank c = true) : foldChar c = c := by
  have hne (d : Char) (hd : isBlank d = false) : c ≠ d := by
    rintro rfl
    rw [hd] at h
    cases h
  simp only [foldChar, hne 'İ' (by decide), hne 'ı' (by decide), hne 'ſ' (by decide),
    hne '\u212A' (by decide), or_self, if_false, toLower_of_isBlank h]

/-- The small form of a character that compares equal to an ASCII letter. -/
def lowerChar (c : Char) : Text :=
  if c = 'İ' then ['i', '\u0307'] else if c = '\u212A' then ['k'] else [c.toLower]

def lower (t : Text) : Text := t.flatMap lowerChar

/-! ### ASCII words -/

theorem ne_of_ascii {c d : Char} (hc : c.toLower.toNat < 0x80) (hd : 0x80 ≤ d.toLower.toNat) : c ≠ d := by
  rintro rfl
  omega

theorem foldChar_of_ascii {c : Char} (h : c.toLower.toNat < 0x80) : foldChar c = c.toLower := by
  have hi : c ≠ 'İ' := ne_of_ascii h (by decide)
  have hdotless : c ≠ 'ı' := ne_of_ascii h (by decide)
  have hs : c ≠ 'ſ' := ne_of_ascii h (by decide)
  have hk : c ≠ '\u212A' := ne_of_ascii h (by decide)
  simp only [foldChar, hi, hdotless, hs, hk, or_self, if_false]

theorem lowerChar_of_ascii {c : Char} (h : c.toLower.toNat < 0x80) : lowerChar c = [c.toLower] := by
  have hi : c ≠ 'İ' := ne_of_ascii h (by decide)
  have hk : c ≠ '\u212A' := ne_of_ascii h (by decide)
  simp only [lowerChar, hi, hk, if_false]

def isAscii (t : Text) : Bool := t.all (·.toNat < 0x80)

theorem foldCase_of_isAscii {t : Text} (h : isAscii (t.map Char.toLower) = true) :
    foldCase t = t.map Char.toLower := by
  induction t with
  | nil => rfl
  | cons c t ih =>
    simp only [isAscii, List.map_cons, List.all_cons, Bool.and_eq_true, decide_eq_true_eq] at h
    rw [foldCase, List.map_cons, foldChar_of_ascii h.1, ← foldCase, ih h.2, List.map_cons]

theorem lower_of_isAscii {t : Text} (h : isAscii (t.map Char.toLower) = true) :
    lower t = t.map Char.toLower := by
  induction t with
  | nil => rfl
  | cons c t ih =>
    simp only [isAscii, List.map_cons, List.all_cons, Bool.and_eq_true, decide_eq_true_eq] at h
    rw [lower, List.flatMap_cons, lowerChar_of_ascii h.1, ← lower, ih h.2, List.map_cons,
      List.singleton_append]

end DisasmLens.Text
