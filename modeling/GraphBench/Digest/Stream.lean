import GraphBench.Digest.Blake3
import GraphBench.Record

/-!
Digests of component streams. Each component feeds its table, id, label and record to the hash; what has
no fixed length is preceded by its length, so that the fed bytes determine the stream.
-/

namespace GraphBench

/-- The eight bytes of a number, low byte first. -/
def littleEndian (n : UInt64) : List UInt8 :=
  [n.toUInt8, (n >>> 8).toUInt8, (n >>> 16).toUInt8, (n >>> 24).toUInt8,
    (n >>> 32).toUInt8, (n >>> 40).toUInt8, (n >>> 48).toUInt8, (n >>> 56).toUInt8]

/-- Bytes behind their number. -/
def framed (bytes : List UInt8) : List UInt8 :=
  littleEndian (UInt64.ofNat bytes.length) ++ bytes

def Component.digestBytes (component : Component) : List UInt8 :=
  framed component.kind.table.toUTF8.toList ++ littleEndian component.id ++
    framed component.label.toUTF8.toList ++
    framed (Record.encode component.id component.fields).toUTF8.toList

/-- The bytes fed so far, and how many components and increments they stand for. -/
structure StreamDigest where
  fed : ByteArray
  components : Nat
  increments : Nat

namespace StreamDigest

def empty : StreamDigest := ⟨.empty, 0, 0⟩

def push (digest : StreamDigest) (component : Component) : StreamDigest :=
  { digest with
    fed := component.digestBytes.foldl ByteArray.push digest.fed
    components := digest.components + 1 }

/-- Takes in one increment, which may be empty. -/
def update (digest : StreamDigest) (graph : Graph) : StreamDigest :=
  let digest := graph.components.foldl push digest
  { digest with increments := digest.increments + 1 }

def ofGraphs (graphs : List Graph) : StreamDigest :=
  graphs.foldl update empty

def value (digest : StreamDigest) : List UInt8 :=
  Blake3.hash digest.fed

def hex (digest : StreamDigest) : String :=
  String.ofList (Hex.encode digest.value)

end StreamDigest

end GraphBench
