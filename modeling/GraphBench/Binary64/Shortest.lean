/-!
The shortest decimal that reads back as a given binary64 number. Every decimal between the midpoints to
the two neighbouring numbers reads back; a midpoint itself does when the significand is even. Among the
grids of multiples of a power of ten, the coarsest one with a point in that interval has the fewest digits.
-/

namespace GraphBench.Binary64

/-- A positive binary64 number `significand * 2 ^ power`. Below a power of two the neighbours are closer. -/
structure Decoded where
  significand : Nat
  power : Int
  closerBelow : Bool

/-- The magnitude of the number with the given bits, which are those of no infinity and no NaN. -/
def decode (bits : UInt64) : Decoded :=
  let fraction := (bits &&& 0xFFFFFFFFFFFFF).toNat
  let exponent := ((bits >>> 52) &&& 0x7FF).toNat
  if exponent = 0 then ⟨fraction, -1074, false⟩
  else ⟨fraction + 0x10000000000000, (exponent : Int) - 1075, fraction = 0 && 1 < exponent⟩

/-- A decimal `digits * 10 ^ power`. -/
structure Decimal where
  digits : Nat
  power : Int

/-- The multiple of `10 ^ power` in the rounding interval of `x` that lies nearest to `x`, if there is one.
Of two at the same distance it is the even one. Quarters of the last binary digit are the unit. -/
def nearestOnGrid? (x : Decoded) (power : Int) : Option Decimal :=
  let scale := Nat.pow 2 (x.power - 2).toNat * Nat.pow 10 (-power).toNat
  let step := Nat.pow 2 (2 - x.power).toNat * Nat.pow 10 power.toNat
  let value := 4 * x.significand * scale
  let low := (4 * x.significand - (if x.closerBelow then 1 else 2)) * scale
  let high := (4 * x.significand + 2) * scale
  let inside (d : Nat) : Bool :=
    if x.significand % 2 = 0 then low ≤ d * step && d * step ≤ high
    else low < d * step && d * step < high
  let below := value / step
  let above := below + 1
  match inside below, inside above with
  | true, true =>
    let down := value - below * step
    let up := above * step - value
    if down < up ∨ (down = up ∧ below % 2 = 0) then some ⟨below, power⟩ else some ⟨above, power⟩
  | true, false => some ⟨below, power⟩
  | false, true => some ⟨above, power⟩
  | false, false => none

/-- The first hit on the grids `10 ^ power`, `10 ^ (power - 1)`, ..., of which `count` are tried. -/
def coarsest? (x : Decoded) (power : Int) : Nat → Option Decimal
  | 0 => none
  | count + 1 => (nearestOnGrid? x power).orElse fun _ => coarsest? x (power - 1) count

/-- The shortest decimal that reads back as the positive number `x`. The largest finite number lies below
`10 ^ 309` and seventeen digits always suffice, so that no grid finer than `10 ^ (-340)` is needed. -/
def shortest (x : Decoded) : Decimal :=
  (coarsest? x 308 650).getD ⟨0, 0⟩

end GraphBench.Binary64
