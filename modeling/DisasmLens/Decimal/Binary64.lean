/-!
# Binary floating point numbers

The numbers of the 64-bit binary format as exact values, and the rounding of a decimal to one of them.

A finite number is `mantissa * 2 ^ exponent` with a mantissa below `2 ^ 53`. The exponent is at least
`-1074`, and above that bound the mantissa is at least `2 ^ 52`, so that each number has one form.
Rounding goes to the nearest number, a tie to the even mantissa.
-/

namespace DisasmLens

/-- A number of the 64-bit binary format. The magnitude of a finite one is `mantissa * 2 ^ exponent`. -/
inductive Binary64 where
  | nan
  | infinite (negative : Bool)
  | finite (negative : Bool) (mantissa : Nat) (exponent : Int)
deriving DecidableEq, Repr

namespace Binary64

/-- The quotient of two naturals, rounded to the nearest integer, a tie to the even one. -/
def roundDiv (num den : Nat) : Nat :=
  let q := num / den
  let r := num % den
  if 2 * r < den then q else if den < 2 * r then q + 1 else if q % 2 = 0 then q else q + 1

/-- The fraction `num / den * 2 ^ k`. -/
def scale (num den : Nat) (k : Int) : Nat × Nat :=
  if 0 ≤ k then (num * Nat.pow 2 k.toNat, den) else (num, den * Nat.pow 2 (-k).toNat)

/-- The exponent at which the positive fraction `num / den` has a mantissa of 53 bits, or `-1074` if
that is larger. The logarithms give it up to one, and a comparison decides. -/
def exponentOf (num den : Nat) : Int :=
  let guess : Int := (num.log2 : Int) - (den.log2 : Int) - 52
  let (n, d) := scale num den (-guess)
  max (-1074) (if n < d * Nat.pow 2 52 then guess - 1 else guess)

/-- The number nearest to the fraction `num / den`. -/
def ofFraction (negative : Bool) (num den : Nat) : Binary64 :=
  if num = 0 then finite negative 0 (-1074)
  else
    let e := exponentOf num den
    let (n, d) := scale num den (-e)
    let m := roundDiv n d
    let (m, e) := if m = Nat.pow 2 53 then (Nat.pow 2 52, e + 1) else (m, e)
    if 971 < e then infinite negative else finite negative m e

/-- The number nearest to `digits * 10 ^ exponent`. Below `10 ^ -400` that is zero and above
`10 ^ 400` an infinity, whatever the digits, so no large power is computed for those. -/
def ofDecimal (negative : Bool) (digits : Nat) (exponent : Int) : Binary64 :=
  let places : Int := (Nat.toDigits 10 digits).length
  if digits = 0 ∨ places + exponent < -400 then finite negative 0 (-1074)
  else if 400 < places + exponent then infinite negative
  else if 0 ≤ exponent then ofFraction negative (digits * Nat.pow 10 exponent.toNat) 1
  else ofFraction negative digits (Nat.pow 10 (-exponent).toNat)

def isZero : Binary64 → Bool
  | finite _ m _ => m = 0
  | _ => false

example : ofDecimal false 1 (-1) = finite false 7205759403792794 (-56) := by decide +kernel

example : ofDecimal true 5 (-324) = finite true 1 (-1074) := by decide +kernel

example : ofDecimal false 2 308 = infinite false := by decide +kernel

end Binary64

end DisasmLens
