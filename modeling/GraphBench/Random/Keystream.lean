/-!
The ChaCha keystream with twelve rounds: a 256-bit key, a 64-bit block counter and an empty nonce give
blocks of sixteen 32-bit words.
-/

namespace GraphBench

structure StreamKey where
  k0 : UInt32
  k1 : UInt32
  k2 : UInt32
  k3 : UInt32
  k4 : UInt32
  k5 : UInt32
  k6 : UInt32
  k7 : UInt32
  deriving DecidableEq

def StreamKey.zero : StreamKey :=
  ⟨0, 0, 0, 0, 0, 0, 0, 0⟩

namespace Keystream

def rotateLeft (x : UInt32) (n : UInt32) : UInt32 :=
  (x <<< n) ||| (x >>> (32 - n))

/-- Four words of the block that are mixed together. -/
structure Quarter where
  a : UInt32
  b : UInt32
  c : UInt32
  d : UInt32

def Quarter.round (q : Quarter) : Quarter :=
  let a := q.a + q.b
  let d := rotateLeft (q.d ^^^ a) 16
  let c := q.c + d
  let b := rotateLeft (q.b ^^^ c) 12
  let a := a + b
  let d := rotateLeft (d ^^^ a) 8
  let c := c + d
  let b := rotateLeft (b ^^^ c) 7
  ⟨a, b, c, d⟩

/-- A block as the four columns of a square of words. -/
structure Block where
  c0 : Quarter
  c1 : Quarter
  c2 : Quarter
  c3 : Quarter

/-- Mixes the columns and then the diagonals. -/
def Block.doubleRound (x : Block) : Block :=
  let p := x.c0.round
  let q := x.c1.round
  let r := x.c2.round
  let s := x.c3.round
  let d0 := Quarter.round ⟨p.a, q.b, r.c, s.d⟩
  let d1 := Quarter.round ⟨q.a, r.b, s.c, p.d⟩
  let d2 := Quarter.round ⟨r.a, s.b, p.c, q.d⟩
  let d3 := Quarter.round ⟨s.a, p.b, q.c, r.d⟩
  ⟨⟨d0.a, d3.b, d2.c, d1.d⟩, ⟨d1.a, d0.b, d3.c, d2.d⟩,
    ⟨d2.a, d1.b, d0.c, d3.d⟩, ⟨d3.a, d2.b, d1.c, d0.d⟩⟩

def Block.doubleRounds (x : Block) : Nat → Block
  | 0 => x
  | n + 1 => x.doubleRound.doubleRounds n

def initial (key : StreamKey) (counter : UInt64) : Block :=
  ⟨⟨0x61707865, key.k0, key.k4, counter.toUInt32⟩,
    ⟨0x3320646E, key.k1, key.k5, (counter >>> 32).toUInt32⟩,
    ⟨0x79622D32, key.k2, key.k6, 0⟩,
    ⟨0x6B206574, key.k3, key.k7, 0⟩⟩

def block (key : StreamKey) (counter : UInt64) : List UInt32 :=
  let x := initial key counter
  let y := x.doubleRounds 6
  [x.c0.a + y.c0.a, x.c1.a + y.c1.a, x.c2.a + y.c2.a, x.c3.a + y.c3.a,
    x.c0.b + y.c0.b, x.c1.b + y.c1.b, x.c2.b + y.c2.b, x.c3.b + y.c3.b,
    x.c0.c + y.c0.c, x.c1.c + y.c1.c, x.c2.c + y.c2.c, x.c3.c + y.c3.c,
    x.c0.d + y.c0.d, x.c1.d + y.c1.d, x.c2.d + y.c2.d, x.c3.d + y.c3.d]

end Keystream

end GraphBench
