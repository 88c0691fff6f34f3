/-!
Bytes as pairs of hexadecimal digits, high half first. Writing uses lower case; reading takes either.
-/

namespace GraphBench.Hex

/-- The lower case digit of a half byte. -/
def digitChar (d : Fin 16) : Char :=
  if d.val < 10 then Char.ofNat ('0'.toNat + d.val) else Char.ofNat ('a'.toNat + (d.val - 10))

def digit? (c : Char) : Option (Fin 16) :=
  if h : '0'.toNat ≤ c.toNat ∧ c.toNat < '0'.toNat + 10 then
    some ⟨c.toNat - '0'.toNat, by omega⟩
  else if h : 'a'.toNat ≤ c.toNat ∧ c.toNat < 'a'.toNat + 6 then
    some ⟨c.toNat - 'a'.toNat + 10, by omega⟩
  else if h : 'A'.toNat ≤ c.toNat ∧ c.toNat < 'A'.toNat + 6 then
    some ⟨c.toNat - 'A'.toNat + 10, by omega⟩
  else none

def highHalf (b : UInt8) : Fin 16 :=
  ⟨b.toNat / 16, Nat.div_lt_of_lt_mul b.toNat_lt⟩

def lowHalf (b : UInt8) : Fin 16 :=
  ⟨b.toNat % 16, Nat.mod_lt _ (by decide)⟩

def encodeByte (b : UInt8) : List Char :=
  [digitChar (highHalf b), digitChar (lowHalf b)]

def encode (bytes : List UInt8) : List Char :=
  bytes.flatMap encodeByte

/-- Reads pairs of digits behind the bytes read so far, which are held in reverse. -/
def decodeOnto (read : List UInt8) : List Char → Option (List UInt8)
  | [] => some read.reverse
  | [_] => none
  | high :: low :: rest =>
    match digit? high, digit? low with
    | some h, some l => decodeOnto (UInt8.ofNat (h.val * 16 + l.val) :: read) rest
    | _, _ => none

def decode (text : List Char) : Option (List UInt8) :=
  decodeOnto [] text

def digits (n : Nat) : List Char :=
  if n < 16 then [digitChar (Fin.ofNat 16 n)]
  else digits (n / 16) ++ [digitChar (Fin.ofNat 16 n)]

end GraphBench.Hex
