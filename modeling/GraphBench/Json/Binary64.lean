import GraphBench.Binary64.Shortest
import GraphBench.Json.Basic

/-!
JSON numbers and binary64 numbers. Writing gives the shortest decimal that reads back: positional with a
point while that point stands at most sixteen digits behind the first digit and at most four zeros before
it, with a power of ten otherwise. Reading takes leading digits into a 64-bit integer while they fit and
scales once by a power of ten, so that a number with many digits may come out a neighbour of the nearest one.
-/

namespace GraphBench.JsonNumber

open Decimal (digitsOf)

/-- The digits of a positive decimal with the point behind the first `point` of them. -/
def ofDecimal (negative : Bool) (d : Binary64.Decimal) : JsonNumber :=
  let ds := digitsOf d.digits
  let point : Int := ds.length + d.power
  if 0 ≤ d.power ∧ point ≤ 16 then ⟨negative, d.digits * Nat.pow 10 d.power.toNat, [Decimal.zeroDigit], none⟩
  else if 0 < point ∧ point ≤ 16 then
    ⟨negative, Decimal.ofDigits 0 (ds.take point.toNat), ds.drop point.toNat, none⟩
  else if -5 < point ∧ point ≤ 0 then
    ⟨negative, 0, List.replicate (-point).toNat Decimal.zeroDigit ++ ds, none⟩
  else ⟨negative, Decimal.ofDigits 0 (ds.take 1), ds.drop 1, some (point - 1)⟩

/-- The number that stands for a float; infinities and NaN have none. -/
def ofFloat? (x : Float) : Option JsonNumber :=
  let bits := x.toBits
  let negative : Bool := bits >>> 63 = 1
  if x.isNaN || x.isInf then none
  else if bits &&& 0x7FFFFFFFFFFFFFFF = 0 then some ⟨negative, 0, [Decimal.zeroDigit], none⟩
  else some (ofDecimal negative (Binary64.shortest (Binary64.decode bits)))

/-- Takes the digits of the whole part onto `value` while they fit; `left` of them are left out. -/
def takeWhole (value left : Nat) : List (Fin 10) → Nat × Nat
  | [] => (value, left)
  | d :: ds =>
    if left = 0 ∧ value * 10 + d.val < UInt64.size then takeWhole (value * 10 + d.val) 0 ds
    else takeWhole value (left + 1) ds

/-- Takes the digits of the fraction onto `value` while they fit, each of them lowering the power. -/
def takeFraction (value : Nat) (power : Int) : List (Fin 10) → Nat × Int
  | [] => (value, power)
  | d :: ds =>
    if value * 10 + d.val < UInt64.size then takeFraction (value * 10 + d.val) (power - 1) ds
    else (value, power)

/-- The integer that the leading digits of a number make, and the power of ten that scales it. -/
def leading (n : JsonNumber) : Nat × Int :=
  let whole := takeWhole 0 0 (digitsOf n.whole)
  takeFraction whole.1 whole.2 n.fraction

/-- `x * 10 ^ power`, or `none` beyond the finite numbers. Powers beyond 308 are taken in steps. -/
def scaled? (x : Float) (power : Int) : Option Float :=
  if power < -308 then
    if x == 0 then some x else scaled? (x / Float.ofScientific 1 false 308) (power + 308)
  else if power < 0 then some (x / Float.ofScientific 1 false (-power).toNat)
  else if power ≤ 308 then
    let y := x * Float.ofScientific 1 false power.toNat
    if y.isInf then none else some y
  else if x == 0 then some x else none
termination_by (-power).toNat
decreasing_by omega

/-- The float that a number denotes, or `none` beyond the finite numbers. A written power of 2 ^ 31 and
more makes zero or overflows whatever the digits are. -/
def toFloat? (n : JsonNumber) : Option Float :=
  let (value, power) := n.leading
  let written := n.power.getD 0
  let magnitude :=
    if 2147483648 ≤ written then (if value = 0 then some 0 else none)
    else if written ≤ -2147483648 then some 0
    else scaled? (UInt64.ofNat value).toFloat (power + written)
  magnitude.map fun x => if n.negative then -x else x

end GraphBench.JsonNumber

namespace GraphBench.Json

/-- A float as a value; infinities and NaN are written `null`. -/
def ofFloat (x : Float) : Json :=
  (JsonNumber.ofFloat? x).elim .null .number

def float? : Json → Option Float
  | .number n => n.toFloat?
  | _ => none

end GraphBench.Json
