/-!
Unsigned decimal numerals. Reading accepts one leading `+` and leading zeros and stops at the first
character that is no digit or that lifts the value to the bound.
-/

namespace GraphBench

/-- Why a text is no unsigned decimal below the bound. -/
inductive DecimalError where
  | empty
  | invalidDigit
  | tooLarge
  deriving DecidableEq

def DecimalError.message : DecimalError → String
  | .empty => "cannot parse integer from empty string"
  | .invalidDigit => "invalid digit found in string"
  | .tooLarge => "number too large to fit in target type"

namespace Decimal

def digit? (c : Char) : Option (Fin 10) :=
  if h : '0'.toNat ≤ c.toNat ∧ c.toNat < '0'.toNat + 10 then
    some ⟨c.toNat - '0'.toNat, by omega⟩
  else none

def digitChar (d : Fin 10) : Char :=
  Char.ofNat ('0'.toNat + d.val)

def zeroDigit : Fin 10 :=
  ⟨0, by decide⟩

/-- The digits of a number without leading zeros; zero has one digit. -/
def digitsOf (n : Nat) : List (Fin 10) :=
  if n < 10 then [Fin.ofNat 10 n] else digitsOf (n / 10) ++ [Fin.ofNat 10 n]

def digits (n : Nat) : List Char :=
  (digitsOf n).map digitChar

/-- The value that a run of digits has after the digits of `value`. -/
def ofDigits (value : Nat) (ds : List (Fin 10)) : Nat :=
  ds.foldl (fun v d => v * 10 + d.val) value

/-- Reads digits onto `value`, which must stay below `bound`. -/
def readDigits (bound value : Nat) : List Char → Except DecimalError Nat
  | [] => .ok value
  | c :: cs =>
    match digit? c with
    | none => .error .invalidDigit
    | some d =>
      if value * 10 + d.val < bound then readDigits bound (value * 10 + d.val) cs
      else .error .tooLarge

/-- Reads an unsigned decimal below `bound`. -/
def read (bound : Nat) : List Char → Except DecimalError Nat
  | [] => .error .empty
  | ['+'] => .error .invalidDigit
  | '+' :: cs => readDigits bound 0 cs
  | cs => readDigits bound 0 cs

def readUInt64 (text : String) : Except DecimalError UInt64 :=
  (read UInt64.size text.toList).map UInt64.ofNat

def ofUInt64 (n : UInt64) : String :=
  String.ofList (digits n.toNat)

def ofNat (n : Nat) : String :=
  String.ofList (digits n)

end Decimal

end GraphBench
