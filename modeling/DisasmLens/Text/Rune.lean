import DisasmLens.Text.Basic

/-!
# Runes

An escape in a JSON string may name half of a surrogate pair. A rune is a character or such a half
that stands alone, and a rune has one code.
-/

namespace DisasmLens

/-- A character, or the surrogate with code `0xD800 + offset` that is not part of a pair. -/
inductive Rune where
  | scalar (c : Char)
  | surrogate (offset : Fin 2048)
deriving DecidableEq, Repr

namespace Rune

def code : Rune → Nat
  | scalar c => c.toNat
  | surrogate k => 0xD800 + k.val

/-- The rune of a code below `0x110000`; of any other number, the null character. -/
def ofCode (n : Nat) : Rune :=
  if h : 0xD800 ≤ n ∧ n < 0xE000 then surrogate ⟨n - 0xD800, by omega⟩ else scalar (Char.ofNat n)

def isSurrogate : Rune → Bool
  | scalar _ => false
  | surrogate _ => true

def isHigh (n : Nat) : Bool := 0xD800 ≤ n && n < 0xDC00

def isLow (n : Nat) : Bool := 0xDC00 ≤ n && n < 0xE000

def joinPair (high low : Nat) : Nat := 0x10000 + (high - 0xD800) * 0x400 + (low - 0xDC00)

def splitPair (n : Nat) : Nat × Nat :=
  (0xD800 + (n - 0x10000) / 0x400, 0xDC00 + (n - 0x10000) % 0x400)

theorem joinPair_splitPair {n : Nat} (h : 0x10000 ≤ n) :
    joinPair (splitPair n).1 (splitPair n).2 = n := by
  unfold joinPair splitPair
  omega

theorem isHigh_eq_true_iff {n : Nat} : isHigh n = true ↔ 0xD800 ≤ n ∧ n < 0xDC00 := by
  rw [isHigh, Bool.and_eq_true, decide_eq_true_eq, decide_eq_true_eq]

theorem isLow_eq_true_iff {n : Nat} : isLow n = true ↔ 0xDC00 ≤ n ∧ n < 0xE000 := by
  rw [isLow, Bool.and_eq_true, decide_eq_true_eq, decide_eq_true_eq]

theorem toNat_lt_or (c : Char) : c.toNat < 0xD800 ∨ 0xDFFF < c.toNat ∧ c.toNat < 0x110000 := c.valid

theorem ofCode_toNat (c : Char) : ofCode c.toNat = .scalar c := by
  have hnot : ¬(0xD800 ≤ c.toNat ∧ c.toNat < 0xE000) := by
    have hc := toNat_lt_or c
    omega
  rw [ofCode, dif_neg hnot, Char.ofNat_toNat]

theorem code_ofCode_surrogate {n : Nat} (h : 0xD800 ≤ n ∧ n < 0xE000) :
    ∃ k, ofCode n = .surrogate k ∧ (surrogate k).code = n := by
  refine ⟨⟨n - 0xD800, by omega⟩, dif_pos h, ?_⟩
  show 0xD800 + (n - 0xD800) = n
  omega

theorem isHigh_splitPair {c : Char} (h : 0x10000 ≤ c.toNat) :
    isHigh (splitPair c.toNat).1 = true ∧ isLow (splitPair c.toNat).2 = true := by
  have hc := toNat_lt_or c
  rw [isHigh_eq_true_iff, isLow_eq_true_iff, splitPair]
  omega

/-- A rune as the error output has it: a surrogate that stands alone is escaped. -/
def shown : Rune → Text
  | scalar c => [c]
  | r => '\\' :: 'u' :: Text.hexPadded 4 r.code

end Rune

namespace Text

def runes (t : Text) : List Rune := t.map .scalar

/-- Surrogates that stand alone, side by side: the code of the first one, and the positions of the first and the last.
-/
structure Stray where
  code : Nat
  first : Nat
  last : Nat
deriving DecidableEq, Repr

def ofRunesFrom (position : Nat) : List Rune → Except Stray Text
  | [] => .ok []
  | .scalar c :: rest => (ofRunesFrom (position + 1) rest).map (c :: ·)
  | r :: rest => .error ⟨r.code, position, position + (rest.takeWhile Rune.isSurrogate).length⟩

/-- The text of runes, if no surrogate stands alone. -/
def ofRunes (rs : List Rune) : Except Stray Text := ofRunesFrom 0 rs

def shown (rs : List Rune) : Text := rs.flatMap Rune.shown

theorem ofRunesFrom_runes (position : Nat) (t : Text) : ofRunesFrom position t.runes = .ok t := by
  induction t generalizing position with
  | nil => rfl
  | cons c t ih =>
    have hcons : ofRunesFrom position (runes (c :: t)) = (ofRunesFrom (position + 1) (runes t)).map (c :: ·) := rfl
    rw [hcons, ih]
    rfl

@[simp] theorem ofRunes_runes (t : Text) : ofRunes t.runes = .ok t := ofRunesFrom_runes 0 t

theorem eq_runes_of_ofRunesFrom {position : Nat} {rs : List Rune} {t : Text} (h : ofRunesFrom position rs = .ok t) :
    rs = t.runes := by
  induction rs generalizing position t with
  | nil =>
    cases h
    rfl
  | cons r rs ih =>
    cases r with
    | surrogate k => cases h
    | scalar c =>
      have hcons : ofRunesFrom position (.scalar c :: rs) = (ofRunesFrom (position + 1) rs).map (c :: ·) := rfl
      rw [hcons] at h
      cases hrest : ofRunesFrom (position + 1) rs with
      | error stray =>
        rw [hrest] at h
        cases h
      | ok rest =>
        rw [hrest] at h
        cases h
        rw [ih hrest]
        rfl

theorem ofRunes_eq_ok_iff {rs : List Rune} {t : Text} : ofRunes rs = .ok t ↔ rs = t.runes :=
  ⟨eq_runes_of_ofRunesFrom, fun h => h ▸ ofRunes_runes t⟩

example : ofRunes [.scalar 'a', .surrogate 0, .surrogate 1, .scalar 'b'] = .error ⟨0xD800, 1, 2⟩ := rfl

end Text

end DisasmLens
