/-!
The BLAKE3 hash. The input is cut into chunks of 1024 bytes and these into blocks of 64 bytes; the blocks
of a chunk are compressed one after another, and the chunks are joined by a binary tree whose left subtrees
are complete.
-/

namespace GraphBench.Blake3

/-- Eight words that carry the state between compressions. -/
abbrev Chaining := Vector UInt32 8

abbrev BlockWords := Vector UInt32 16

def initial : Chaining :=
  #v[0x6A09E667, 0xBB67AE85, 0x3C6EF372, 0xA54FF53A, 0x510E527F, 0x9B05688C, 0x1F83D9AB, 0x5BE0CD19]

def rotateRight (x n : UInt32) : UInt32 :=
  (x >>> n) ||| (x <<< (32 - n))

/-- Mixes two words of a message into four words of the state. -/
def mix (s : BlockWords) (a b c d : Fin 16) (x y : UInt32) : BlockWords :=
  let va := s[a] + s[b] + x
  let vd := rotateRight (s[d] ^^^ va) 16
  let vc := s[c] + vd
  let vb := rotateRight (s[b] ^^^ vc) 12
  let va := va + vb + y
  let vd := rotateRight (vd ^^^ va) 8
  let vc := vc + vd
  let vb := rotateRight (vb ^^^ vc) 7
  (((s.set a va).set b vb).set c vc).set d vd

/-- Mixes the columns and then the diagonals. -/
def round (s m : BlockWords) : BlockWords :=
  let s := mix s 0 4 8 12 m[0] m[1]
  let s := mix s 1 5 9 13 m[2] m[3]
  let s := mix s 2 6 10 14 m[4] m[5]
  let s := mix s 3 7 11 15 m[6] m[7]
  let s := mix s 0 5 10 15 m[8] m[9]
  let s := mix s 1 6 11 12 m[10] m[11]
  let s := mix s 2 7 8 13 m[12] m[13]
  mix s 3 4 9 14 m[14] m[15]

/-- The order of the message words in the next round. -/
def permute (m : BlockWords) : BlockWords :=
  #v[m[2], m[6], m[3], m[10], m[7], m[0], m[4], m[13],
    m[1], m[11], m[12], m[5], m[9], m[14], m[15], m[8]]

/-- The given number of rounds, with the message permuted between them. -/
def rounds (s m : BlockWords) : Nat → BlockWords
  | 0 => s
  | n + 1 => rounds (round s m) (permute m) n

structure Input where
  chaining : Chaining
  words : BlockWords
  counter : UInt64
  length : UInt32
  flags : UInt32

def chunkStart : UInt32 := 1

def chunkEnd : UInt32 := 2

def parent : UInt32 := 4

def root : UInt32 := 8

/-- The state after a compression, folded to eight words. -/
def compress (input : Input) : Chaining :=
  let h := input.chaining
  let s : BlockWords :=
    #v[h[0], h[1], h[2], h[3], h[4], h[5], h[6], h[7],
      0x6A09E667, 0xBB67AE85, 0x3C6EF372, 0xA54FF53A,
      input.counter.toUInt32, (input.counter >>> 32).toUInt32, input.length, input.flags]
  let s := rounds s input.words 7
  #v[s[0] ^^^ s[8], s[1] ^^^ s[9], s[2] ^^^ s[10], s[3] ^^^ s[11],
    s[4] ^^^ s[12], s[5] ^^^ s[13], s[6] ^^^ s[14], s[7] ^^^ s[15]]

def byteAt (bytes : ByteArray) (i : Nat) : UInt32 :=
  (bytes.data.getD i 0).toUInt32

/-- The little endian word at the given place; beyond the end there are zeros. -/
def wordAt (bytes : ByteArray) (i : Nat) : UInt32 :=
  byteAt bytes i ||| (byteAt bytes (i + 1) <<< 8) ||| (byteAt bytes (i + 2) <<< 16) |||
    (byteAt bytes (i + 3) <<< 24)

/-- The words of the block that covers `length` bytes from `start` on. -/
def blockWords (bytes : ByteArray) (start length : Nat) : BlockWords :=
  let block := bytes.extract start (start + length)
  Vector.ofFn fun i => wordAt block (4 * i.val)

/-- The last compression of a chunk of `length` bytes from `start` on, with `done` bytes of it compressed
into `chaining` and `blocks` blocks left behind the next one. -/
def chunkInput (bytes : ByteArray) (number start length : Nat) (chaining : Chaining) (done : Nat) :
    Nat → Input
  | 0 =>
    let size := length - done
    let flags := chunkEnd ||| (if done = 0 then chunkStart else 0)
    ⟨chaining, blockWords bytes (start + done) size, UInt64.ofNat number, UInt32.ofNat size, flags⟩
  | blocks + 1 =>
    let flags := if done = 0 then chunkStart else 0
    let chaining :=
      compress ⟨chaining, blockWords bytes (start + done) 64, UInt64.ofNat number, 64, flags⟩
    chunkInput bytes number start length chaining (done + 64) blocks

/-- The compression that joins two subtrees. -/
def parentInput (left right : Chaining) : Input :=
  ⟨initial, left ++ right, 0, 64, parent⟩

/-- The last compression of the tree over `count` chunks from number `first` on. The left subtree has the
largest power of two of chunks that leaves some for the right one. -/
def treeInput (bytes : ByteArray) (first count : Nat) : Input :=
  if count ≤ 1 then
    let start := 1024 * first
    let length := min 1024 (bytes.size - start)
    chunkInput bytes first start length initial 0 ((length - 1) / 64)
  else
    let left := Nat.pow 2 (count - 1).log2
    parentInput (compress (treeInput bytes first left))
      (compress (treeInput bytes (first + left) (count - left)))
termination_by count
decreasing_by
  all_goals
    have _ : 0 < Nat.pow 2 (count - 1).log2 := Nat.two_pow_pos _
    have _ : Nat.pow 2 (count - 1).log2 ≤ count - 1 := Nat.log2_self_le (by omega)
    omega

def wordBytes (w : UInt32) : List UInt8 :=
  [w.toUInt8, (w >>> 8).toUInt8, (w >>> 16).toUInt8, (w >>> 24).toUInt8]

def hash (bytes : ByteArray) : List UInt8 :=
  let input := treeInput bytes 0 ((bytes.size + 1023) / 1024)
  (compress { input with flags := input.flags ||| root }).toList.flatMap wordBytes

end GraphBench.Blake3
