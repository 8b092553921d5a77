import DisasmLens.Decimal.Binary64
import DisasmLens.Text.Basic

/-!
# Shortest decimal text

The text of a binary floating point number is the decimal with the fewest digits that reads back as
the same number, and of two such decimals the nearer one. `Shortest.digits` finds it on decimal grids of
growing fineness: if some point of a grid rounds to the number, one of the two points next to the number
does.

Numbers from `0.0001` up to, but not including, `10 ^ 16` are written out with a point, all others with
an exponent of at least two digits.
-/

namespace DisasmLens.Shortest

open Binary64

/-- The number of decimal digits before the point of the positive fraction `num / den`; zero or
negative for one below `1 / 10`. The digit counts give it up to one, and a comparison decides. -/
def pointOf (num den : Nat) : Int :=
  let guess : Int := (Nat.toDigits 10 num).length - (Nat.toDigits 10 den).length
  let reaches : Bool :=
    if 0 ≤ guess then den * Nat.pow 10 guess.toNat ≤ num else den ≤ num * Nat.pow 10 (-guess).toNat
  if reaches then guess + 1 else guess

/-- The better point of the grid of multiples of `10 ^ grid` among the two next to `num / den`,
counted in grid steps, if at least one of them rounds to `x`. -/
def onGrid? (x : Binary64) (num den : Nat) (grid : Int) : Option Nat :=
  let (n, d) :=
    if 0 ≤ grid then (num, den * Nat.pow 10 grid.toNat) else (num * Nat.pow 10 (-grid).toNat, den)
  let below := n / d
  let fits (k : Nat) : Bool := ofDecimal false k grid = x
  match fits below, fits (below + 1) with
  | true, true => some (roundDiv n d)
  | true, false => some below
  | false, true => some (below + 1)
  | false, false => none

/-- The digits of the shortest decimal of a positive number and the place of its point: the number is
`0.d₁d₂…` times ten to that place. -/
def digits (mantissa : Nat) (exponent : Int) : Nat × Int :=
  let (num, den) := scale mantissa 1 exponent
  let point := pointOf num den
  let x := finite false mantissa exponent
  let grids := (List.range 17).map fun (i : Nat) => point - (i + 1 : Nat)
  match grids.findSome? fun grid => (onGrid? x num den grid).map (·, grid) with
  | some hit => hit
  | none => (mantissa, exponent)

/-- Writes the decimal `0.ds * 10 ^ point` out, with at least one digit on each side of the point. -/
def positional (ds : Text) (point : Int) : Text :=
  if point ≤ 0 then "0.".toList ++ List.replicate (-point).toNat '0' ++ ds
  else
    let whole := ds.take point.toNat ++ List.replicate (point.toNat - ds.length) '0'
    let part := ds.drop point.toNat
    whole ++ '.' :: (if part = [] then ['0'] else part)

/-- Writes the decimal `0.ds * 10 ^ point` with one digit before the point and an exponent. -/
def scientific (ds : Text) (point : Int) : Text :=
  let e := point - 1
  let size := Text.decimal e.natAbs
  let lead := match ds with
    | [] => []
    | [d] => [d]
    | d :: rest => d :: '.' :: rest
  lead ++ 'e' :: (if e < 0 then '-' else '+') :: (if size.length < 2 then '0' :: size else size)

def trimZeros (ds : Text) : Text := (ds.reverse.dropWhile (· = '0')).reverse

def magnitude (mantissa : Nat) (exponent : Int) : Text :=
  if mantissa = 0 then "0.0".toList
  else
    let (k, grid) := digits mantissa exponent
    let ds := Text.decimal k
    let point := grid + ds.length
    let ds := trimZeros ds
    if -4 < point ∧ point ≤ 16 then positional ds point else scientific ds point

/-- The text of a finite number, or `none` of an infinity and of what is not a number. -/
def text? : Binary64 → Option Text
  | finite negative m e => some ((if negative then ['-'] else []) ++ magnitude m e)
  | _ => none

end DisasmLens.Shortest
