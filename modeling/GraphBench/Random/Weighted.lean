import GraphBench.Random.Generator

/-!
Choice among five alternatives by weight. A random float below the total of the weights falls between two
of their running sums.
-/

namespace GraphBench

/-- Five weights as running sums: the sum of the first one, two, three and four, and the factor that
spreads the unit interval over the total. -/
structure WeightedChoice where
  first : Float
  second : Float
  third : Float
  fourth : Float
  scale : Float

namespace WeightedChoice

/-- Largest float below one that a draw from the unit interval can give. -/
def maxUnit : Float :=
  Float.ofBits 0x3FEFFFFFFFFFFFFE

/-- The scale stepped down until the largest draw stays below the total, in at most `count` steps. A total
that is no subnormal number needs none and any other needs one. -/
def fitScale (total scale : Float) : Nat → Float
  | 0 => scale
  | count + 1 =>
    if scale * maxUnit ≥ total then fitScale total (Float.ofBits (scale.toBits - 1)) count else scale

/-- The choice with the given weights, unless their total is beyond the finite numbers. -/
def ofWeights? (a b c d e : Float) : Option WeightedChoice :=
  let total := a + b + c + d + e
  if total.isInf || total.isNaN then none
  else some ⟨a, a + b, a + b + c, a + b + c + d, fitScale total total 64⟩

/-- A float in the unit interval with 52 random bits. -/
def unit (g : Generator) : Float × Generator :=
  let (v, g) := g.nextUInt64
  (Float.ofBits ((0x3FF0000000000000 : UInt64) ||| (v >>> 12)) - 1.0, g)

/-- The number of the drawn alternative: how many running sums the draw has reached. -/
def draw (choice : WeightedChoice) (g : Generator) : Fin 5 × Generator :=
  let (u, g) := unit g
  let x := u * choice.scale
  let index : Fin 5 :=
    if x < choice.first then 0
    else if x < choice.second then 1
    else if x < choice.third then 2
    else if x < choice.fourth then 3
    else 4
  (index, g)

end WeightedChoice

end GraphBench
