/-
Module: HostControl.Real.Shortest
Purpose: Binary64 numbers written with the fewest decimal digits that read back as the same number.
Main exports: Binary64, Binary64.decode, Binary64.shortest, Binary64.text?
-/
import HostControl.Text.Numeral

namespace HostControl

/-- A binary64 number, by its bits. -/
structure Binary64 where
  bits : UInt64
deriving DecidableEq, Repr, Inhabited

namespace Binary64

open Text

/-- The bits of a float. -/
def ofFloat (x : Float) : Binary64 := ⟨x.toBits⟩

def negative (x : Binary64) : Bool := x.bits >>> 63 == 1

/-- The biased exponent and the stored fraction. -/
def exponentField (x : Binary64) : Nat := ((x.bits >>> 52) &&& 0x7ff).toNat
def fractionField (x : Binary64) : Nat := (x.bits &&& 0xfffffffffffff).toNat

def finite (x : Binary64) : Bool := x.exponentField != 2047

/-- The least magnitude of a normal number, in units of its last place: two to the power of 52. -/
def leastNormal : Nat := 4503599627370496

/-- A power of a base; one where the exponent is negative. -/
def power (base : Nat) (exponent : Int) : Nat := Nat.pow base exponent.toNat

/-- The magnitude `m · 2^q` of a finite number, as `m` and `q`. -/
def decode (x : Binary64) : Nat × Int :=
  if x.exponentField == 0 then (x.fractionField, -1074)
  else (x.fractionField + leastNormal, (x.exponentField : Int) - 1075)

/-- Whether the decimal `digits · 10^e` lies in the interval of reals that round to `m · 2^q`. All is
scaled by four and by the powers that make it whole; the ends belong to the interval when `m` is
even. Below a power of two the interval is half as wide. -/
def roundsTo (m : Nat) (q : Int) (digits : Nat) (e : Int) : Bool :=
  let scale2 := power 2 (-q)
  let scale10 := power 10 (-e)
  let value := 4 * digits * power 10 e * scale2
  let unit := power 2 q * scale10
  let low := if m == leastNormal && q > -1074 then (4 * m - 1) * unit else (4 * m - 2) * unit
  let high := (4 * m + 2) * unit
  if m % 2 == 0 then low ≤ value && value ≤ high else low < value && value < high

/-- The distance of `digits · 10^e` from `m · 2^q`, scaled as in `roundsTo`. -/
def distance (m : Nat) (q : Int) (digits : Nat) (e : Int) : Nat :=
  let scale2 := power 2 (-q)
  let scale10 := power 10 (-e)
  let value := digits * power 10 e * scale2
  let center := m * power 2 q * scale10
  if value ≤ center then center - value else value - center

/-- The whole part of `m · 2^q / 10^e`. -/
def floorOn (m : Nat) (q e : Int) : Nat :=
  (m * power 2 q * power 10 (-e)) / (power 2 (-q) * power 10 e)

/-- The best decimal on the grid of multiples of `10^e`, if one reads back: of the two neighbours the
nearer, at equal distance the even one. -/
def onGrid (m : Nat) (q e : Int) : Option Nat :=
  let below := floorOn m q e
  let above := below + 1
  match roundsTo m q below e, roundsTo m q above e with
  | false, false => none
  | true, false => some below
  | false, true => some above
  | true, true =>
    let d := distance m q below e
    let u := distance m q above e
    if d < u then some below else if u < d then some above
    else if below % 2 == 0 then some below else some above

/-- The number of decimal digits before the point of `m · 2^q`, none or fewer when it is small. -/
def magnitude (m : Nat) (q : Int) : Int :=
  let whole := floorOn m q 0
  if whole > 0 then (decimal whole).length
  else
    -- At most 324 places follow the point before the first digit.
    match (List.range 325).find? (fun (k : Nat) => decide (floorOn m q (-(k : Int) - 1) > 0)) with
    | some k => -(k : Int)
    | none => -324

/-- The digits and the exponent of ten of the shortest decimal that reads back as `m · 2^q`. -/
def shortest (m : Nat) (q : Int) : Nat × Int :=
  let top := magnitude m q
  let grids := (List.range 17).map fun (k : Nat) => top - 1 - (k : Int)
  match grids.findSome? (fun e => (onGrid m q e).map (·, e)) with
  | some (digits, e) => (digits, e)
  | none => (floorOn m q (top - 17), top - 17)

/-- A digit string without the zeros at its end, and how many there were. -/
def dropZeros (ds : List Char) : List Char × Nat :=
  let kept := (ds.reverse.dropWhile (· == '0')).reverse
  (kept, ds.length - kept.length)

/-- The text of an exponent of ten, always with its sign. -/
def exponentChars (e : Int) : List Char := if e < 0 then signed e else '+' :: signed e

/-- The text of a positive magnitude. Up to sixteen places before the point and up to five zeros
behind it are written out, with at least one digit after the point; all else takes an exponent. -/
def magnitudeChars (m : Nat) (q : Int) : List Char :=
  let (digits, e) := shortest m q
  let (ds, zeros) := dropZeros (decimal digits)
  let e := e + zeros
  let point : Int := ds.length + e
  if 0 ≤ e ∧ point ≤ 16 then ds ++ List.replicate e.toNat '0' ++ ['.', '0']
  else if 0 < point ∧ point ≤ 16 then ds.take point.toNat ++ '.' :: ds.drop point.toNat
  else if -5 < point ∧ point ≤ 0 then ['0', '.'] ++ List.replicate (-point).toNat '0' ++ ds
  else
    let mantissa := match ds with
      | [d] => [d]
      | d :: more => d :: '.' :: more
      | [] => ['0']
    mantissa ++ 'e' :: exponentChars (point - 1)

/-- The text of a finite number; a number that is not finite has none. -/
def text? (x : Binary64) : Option (List Char) :=
  if !x.finite then none
  else
    let (m, q) := x.decode
    let magnitude := if m == 0 then ['0', '.', '0'] else magnitudeChars m q
    some (if x.negative then '-' :: magnitude else magnitude)

/-- The sixteen hexadecimal digits of the bits. -/
def hexChars (x : Binary64) : List Char :=
  let ds := numeral 16 x.bits.toNat
  List.replicate (16 - ds.length) '0' ++ ds

end Binary64

end HostControl
