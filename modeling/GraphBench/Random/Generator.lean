import GraphBench.Random.Keystream

/-!
Random numbers from a keystream. A seed is stretched to a key; numbers below a bound are drawn by
multiplication, and draws that would favour some results are repeated.
-/

namespace GraphBench

/-- A position in a keystream: the words left of the current block, and the number of the next one. -/
structure Generator where
  key : StreamKey
  words : List UInt32
  nextBlock : UInt64
  deriving DecidableEq

namespace Generator

/-- Stretches a seed: the next state of the seed, and the word that it gives. -/
def stretch (seed : UInt64) : UInt32 × UInt64 :=
  let s := seed * 6364136223846793005 + 11634580027462260723
  let x := (((s >>> 18) ^^^ s) >>> 27).toUInt32
  let n := (s >>> 59).toUInt32
  ((x >>> n) ||| (x <<< ((32 - n) % 32)), s)

def ofKey (key : StreamKey) : Generator :=
  ⟨key, [], 0⟩

/-- The generator at the start of the stream that a seed selects. -/
def ofSeed (seed : UInt64) : Generator :=
  let (k0, s) := stretch seed
  let (k1, s) := stretch s
  let (k2, s) := stretch s
  let (k3, s) := stretch s
  let (k4, s) := stretch s
  let (k5, s) := stretch s
  let (k6, s) := stretch s
  let (k7, _) := stretch s
  .ofKey ⟨k0, k1, k2, k3, k4, k5, k6, k7⟩

def nextUInt32 (g : Generator) : UInt32 × Generator :=
  match g.words with
  | w :: ws => (w, { g with words := ws })
  | [] =>
    let words := Keystream.block g.key g.nextBlock
    (words.headD 0, ⟨g.key, words.tail, g.nextBlock + 1⟩)

/-- The next 64 random bits, low half first. -/
def nextUInt64 (g : Generator) : UInt64 × Generator :=
  let (low, g) := g.nextUInt32
  let (high, g) := g.nextUInt32
  (high.toUInt64 <<< 32 ||| low.toUInt64, g)

/-- How often a draw is repeated at most. At least half of all draws are accepted, so that no stream of
practical length comes near; a draw that is then still unaccepted counts. -/
def maxRepeats : Nat := 1000

/-- A draw below `bound` from 64 random bits `v` is the high word of `v * bound`. It is accepted while the
low word is at most `zone`. -/
def belowZone (bound zone : Nat) (g : Generator) : Nat → Nat × Generator
  | 0 => (g.nextUInt64.1.toNat * bound / UInt64.size, g.nextUInt64.2)
  | repeats + 1 =>
    let (v, g) := g.nextUInt64
    let product := v.toNat * bound
    if product % UInt64.size ≤ zone then (product / UInt64.size, g) else belowZone bound zone g repeats

/-- A number below a positive `bound` of at most 64 bits. The zone is the bound shifted up as far as it
goes, less one. -/
def below (bound : UInt64) (g : Generator) : UInt64 × Generator :=
  let zone := bound.toNat * Nat.pow 2 (63 - bound.toNat.log2) - 1
  let (n, g) := belowZone bound.toNat zone g maxRepeats
  (UInt64.ofNat n, g)

/-- Same as `belowZone` with 32 random bits to a draw. -/
def belowZone32 (bound zone : Nat) (g : Generator) : Nat → Nat × Generator
  | 0 => (g.nextUInt32.1.toNat * bound / UInt32.size, g.nextUInt32.2)
  | repeats + 1 =>
    let (v, g) := g.nextUInt32
    let product := v.toNat * bound
    if product % UInt32.size ≤ zone then (product / UInt32.size, g) else belowZone32 bound zone g repeats

/-- A printable ASCII byte, from the blank to the tilde. The zone is the largest that holds every one of
the 95 results equally often. -/
def printableByte (g : Generator) : UInt8 × Generator :=
  let (n, g) := belowZone32 95 (UInt32.size - 1 - (UInt32.size - 95) % 95) g maxRepeats
  (UInt8.ofNat (' '.toNat + n), g)

/-- Printable bytes, behind those drawn so far, which are held in reverse. -/
def printableBytesOnto (drawn : List UInt8) (g : Generator) : Nat → List UInt8 × Generator
  | 0 => (drawn.reverse, g)
  | count + 1 =>
    let (b, g) := g.printableByte
    printableBytesOnto (b :: drawn) g count

def printableBytes (count : Nat) (g : Generator) : List UInt8 × Generator :=
  printableBytesOnto [] g count

end Generator

end GraphBench
