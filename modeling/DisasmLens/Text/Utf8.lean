import DisasmLens.Text.Basic

/-!
# UTF-8

Encoding of texts as bytes and the strict reading of bytes. A sequence that is no character is refused with
the positions of its bytes: of a sequence that breaks off, the bytes read so far, and of a byte that starts
none, that byte.

The first byte of a sequence fixes how many bytes follow and between which bounds the next one lies; the
bounds keep out overlong forms, surrogates and codes above `0x10FFFF`.
-/

namespace DisasmLens.Utf8

/-! ### Encoding -/

/-- A byte that continues a sequence, holding the last six bits of a number. -/
def tail (n : Nat) : UInt8 := UInt8.ofNat (0x80 + n % 64)

def encodeChar (c : Char) : List UInt8 :=
  let n := c.toNat
  if n < 0x80 then [UInt8.ofNat n]
  else if n < 0x800 then [UInt8.ofNat (0xC0 + n / 64), tail n]
  else if n < 0x10000 then [UInt8.ofNat (0xE0 + n / 4096), tail (n / 64), tail n]
  else [UInt8.ofNat (0xF0 + n / 262144), tail (n / 4096), tail (n / 64), tail n]

def encode (t : Text) : List UInt8 := t.flatMap encodeChar

/-! ### Reading -/

inductive Defect where
  | badStart
  | badContinuation
  | truncated
deriving DecidableEq, Repr

/-- Why bytes are refused: the first byte of the sequence, and the positions of its first and its last one. -/
structure Failure where
  defect : Defect
  byte : UInt8
  first : Nat
  last : Nat
deriving DecidableEq, Repr

/-- A sequence that has been read in part: its first byte, the position of that, how many bytes follow the next one,
from where to where that one may lie, and the bits read so far. -/
structure Pending where
  byte : UInt8
  first : Nat
  more : Nat
  least : Nat
  greatest : Nat
  bits : Nat

def Pending.ofStart? (byte : UInt8) (first : Nat) : Option Pending :=
  let n := byte.toNat
  if 0xC2 ≤ n ∧ n ≤ 0xDF then some ⟨byte, first, 0, 0x80, 0xBF, n - 0xC0⟩
  else if 0xE0 ≤ n ∧ n ≤ 0xEF then
    some ⟨byte, first, 1, if n = 0xE0 then 0xA0 else 0x80, if n = 0xED then 0x9F else 0xBF, n - 0xE0⟩
  else if 0xF0 ≤ n ∧ n ≤ 0xF4 then
    some ⟨byte, first, 2, if n = 0xF0 then 0x90 else 0x80, if n = 0xF4 then 0x8F else 0xBF, n - 0xF0⟩
  else none

/-- Reads the bytes from a position on, the first of which may continue a sequence. -/
def decodeFrom (position : Nat) : Option Pending → List UInt8 → Except Failure Text
  | none, [] => .ok []
  | some p, [] => .error ⟨.truncated, p.byte, p.first, position - 1⟩
  | none, b :: rest =>
    if b.toNat < 0x80 then
      (decodeFrom (position + 1) none rest).map (Char.ofNat b.toNat :: ·)
    else
      match Pending.ofStart? b position with
      | none => .error ⟨.badStart, b, position, position⟩
      | some p => decodeFrom (position + 1) (some p) rest
  | some p, b :: rest =>
    if p.least ≤ b.toNat ∧ b.toNat ≤ p.greatest then
      let bits := p.bits * 64 + b.toNat % 64
      match p.more with
      | 0 => (decodeFrom (position + 1) none rest).map (Char.ofNat bits :: ·)
      | more + 1 => decodeFrom (position + 1) (some ⟨p.byte, p.first, more, 0x80, 0xBF, bits⟩) rest
    else .error ⟨.badContinuation, p.byte, p.first, position - 1⟩

def decode (bytes : List UInt8) : Except Failure Text := decodeFrom 0 none bytes

/-! ### Reading back -/

theorem toNat_ofNat {n : Nat} (h : n < 256) : (UInt8.ofNat n).toNat = n := UInt8.toNat_ofNat_of_lt' h

theorem Pending.ofStart?_two {b : UInt8} {n : Nat} (hb : b.toNat = 0xC0 + n) (hn : 2 ≤ n ∧ n < 0x20) (first : Nat) :
    ofStart? b first = some ⟨b, first, 0, 0x80, 0xBF, n⟩ := by
  have hbits : 0xC0 + n - 0xC0 = n := by omega
  rw [ofStart?, hb, if_pos (by omega), hbits]

theorem Pending.ofStart?_three {b : UInt8} {n : Nat} (hb : b.toNat = 0xE0 + n) (hn : n < 0x10) (first : Nat) :
    ofStart? b first =
      some ⟨b, first, 1, if n = 0 then 0xA0 else 0x80, if n = 0xD then 0x9F else 0xBF, n⟩ := by
  have hbits : 0xE0 + n - 0xE0 = n := by omega
  have hleast : 0xE0 + n = 0xE0 ↔ n = 0 := by omega
  have hgreatest : 0xE0 + n = 0xED ↔ n = 0xD := by omega
  rw [ofStart?, hb, if_neg (by omega), if_pos (by omega), hbits]
  simp only [hleast, hgreatest]

theorem Pending.ofStart?_four {b : UInt8} {n : Nat} (hb : b.toNat = 0xF0 + n) (hn : n < 5) (first : Nat) :
    ofStart? b first =
      some ⟨b, first, 2, if n = 0 then 0x90 else 0x80, if n = 4 then 0x8F else 0xBF, n⟩ := by
  have hbits : 0xF0 + n - 0xF0 = n := by omega
  have hleast : 0xF0 + n = 0xF0 ↔ n = 0 := by omega
  have hgreatest : 0xF0 + n = 0xF4 ↔ n = 4 := by omega
  rw [ofStart?, hb, if_neg (by omega), if_neg (by omega), if_pos (by omega), hbits]
  simp only [hleast, hgreatest]

theorem decodeFrom_start {position : Nat} {b : UInt8} {p : Pending} (hb : 0x80 ≤ b.toNat)
    (hp : Pending.ofStart? b position = some p) (rest : List UInt8) :
    decodeFrom position none (b :: rest) = decodeFrom (position + 1) (some p) rest := by
  rw [decodeFrom, if_neg (Nat.not_lt.mpr hb), hp]

theorem decodeFrom_tail (position : Nat) (p : Pending) {n : Nat}
    (h : p.least ≤ 0x80 + n % 64 ∧ 0x80 + n % 64 ≤ p.greatest) (rest : List UInt8) :
    decodeFrom position (some p) (tail n :: rest) =
      match p.more with
      | 0 => (decodeFrom (position + 1) none rest).map (Char.ofNat (p.bits * 64 + n % 64) :: ·)
      | more + 1 =>
        decodeFrom (position + 1) (some ⟨p.byte, p.first, more, 0x80, 0xBF, p.bits * 64 + n % 64⟩) rest := by
  have hbyte : (tail n).toNat = 0x80 + n % 64 := toNat_ofNat (by omega)
  have hbits : (0x80 + n % 64) % 64 = n % 64 := by omega
  rw [decodeFrom, hbyte, if_pos h, hbits]

/-- A byte that follows the second one of a sequence is not bounded further. -/
theorem decodeFrom_tail_free (position : Nat) (byte : UInt8) (first more bits n : Nat) (rest : List UInt8) :
    decodeFrom position (some ⟨byte, first, more, 0x80, 0xBF, bits⟩) (tail n :: rest) =
      match more with
      | 0 => (decodeFrom (position + 1) none rest).map (Char.ofNat (bits * 64 + n % 64) :: ·)
      | more + 1 => decodeFrom (position + 1) (some ⟨byte, first, more, 0x80, 0xBF, bits * 64 + n % 64⟩) rest := by
  have hn : n % 64 < 64 := Nat.mod_lt n (by decide)
  have hbounds : 0x80 ≤ 0x80 + n % 64 ∧ 0x80 + n % 64 ≤ 0xBF := by omega
  exact decodeFrom_tail position ⟨byte, first, more, 0x80, 0xBF, bits⟩ hbounds rest

theorem decodeFrom_encodeChar (c : Char) (position : Nat) (rest : List UInt8) :
    ∃ next, decodeFrom position none (encodeChar c ++ rest) = (decodeFrom next none rest).map (c :: ·) := by
  have hc : c.toNat < 0xD800 ∨ 0xDFFF < c.toNat ∧ c.toNat < 0x110000 := c.valid
  have hchar {n : Nat} (h : n = c.toNat) : Char.ofNat n = c := h ▸ Char.ofNat_toNat c
  unfold encodeChar
  dsimp only
  -- One case for each length of a sequence.
  split
  · have hfirst := toNat_ofNat (n := c.toNat) (by omega)
    refine ⟨position + 1, ?_⟩
    rw [List.singleton_append, decodeFrom, hfirst, if_pos ‹_›, hchar rfl]
  split
  · have hfirst := toNat_ofNat (n := 0xC0 + c.toNat / 64) (by omega)
    have hstart := Pending.ofStart?_two hfirst (by omega) position
    refine ⟨position + 1 + 1, ?_⟩
    rw [List.cons_append, List.singleton_append, decodeFrom_start (by omega) hstart, decodeFrom_tail_free]
    dsimp only
    rw [hchar (by omega)]
  split
  · have hfirst := toNat_ofNat (n := 0xE0 + c.toNat / 4096) (by omega)
    have hstart := Pending.ofStart?_three hfirst (by omega) position
    refine ⟨position + 1 + 1 + 1, ?_⟩
    rw [List.cons_append, List.cons_append, List.singleton_append, decodeFrom_start (by omega) hstart,
      decodeFrom_tail]
    · dsimp only
      rw [decodeFrom_tail_free]
      dsimp only
      rw [hchar (by omega)]
    · dsimp only
      split <;> split <;> omega
  · have hfirst := toNat_ofNat (n := 0xF0 + c.toNat / 262144) (by omega)
    have hstart := Pending.ofStart?_four hfirst (by omega) position
    refine ⟨position + 1 + 1 + 1 + 1, ?_⟩
    rw [List.cons_append, List.cons_append, List.cons_append, List.singleton_append,
      decodeFrom_start (by omega) hstart, decodeFrom_tail]
    · dsimp only
      rw [decodeFrom_tail_free]
      dsimp only
      rw [decodeFrom_tail_free]
      dsimp only
      rw [hchar (by omega)]
    · dsimp only
      split <;> split <;> omega

theorem decode_encode (t : Text) : decode (encode t) = .ok t := by
  have hfrom (position : Nat) : decodeFrom position none (encode t) = .ok t := by
    induction t generalizing position with
    | nil => rfl
    | cons c t ih =>
      obtain ⟨next, hnext⟩ := decodeFrom_encodeChar c position (encode t)
      rw [encode, List.flatMap_cons, ← encode, hnext, ih next]
      rfl
  exact hfrom 0

example : (decode (encode ['a', 'é', '€', '😀'])).toOption = some ['a', 'é', '€', '😀'] := by
  decide +kernel

end DisasmLens.Utf8
