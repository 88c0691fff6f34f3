import GraphBench.Text.Blank
import GraphBench.Text.Decimal
import GraphBench.Text.Hex
import Mathlib.Algebra.Group.Nat.Defs

/-!
Numerals read back. A decimal text stands for the number that it was written from, a hexadecimal text for
the bytes that it was written from, and both consist of ASCII letters and digits.
-/

namespace GraphBench

/-- The characters of ASCII that are no control characters. -/
def isVisible (c : Char) : Prop :=
  0x20 ≤ c.toNat ∧ c.toNat < 0x7F

instance (c : Char) : Decidable (isVisible c) :=
  inferInstanceAs (Decidable (0x20 ≤ c.toNat ∧ c.toNat < 0x7F))

/-- A text without control characters and without characters beyond ASCII. -/
def isVisibleText (text : String) : Prop :=
  ∀ c ∈ text.toList, isVisible c

instance (text : String) : Decidable (isVisibleText text) :=
  List.decidableBAll _ text.toList

theorem isVisible.ne_newline {c : Char} (h : isVisible c) : c ≠ '\n' := by
  rintro rfl
  exact absurd h.1 (by decide)

theorem isVisibleText_append {first second : String} (h : isVisibleText first)
    (h' : isVisibleText second) : isVisibleText (first ++ second) := by
  intro c hc
  rw [String.toList_append, List.mem_append] at hc
  rcases hc with hc | hc
  · exact h c hc
  · exact h' c hc

theorem dropWhile_of_forall_not {α : Type} {p : α → Bool} {l : List α} (h : ∀ a ∈ l, p a = false) :
    l.dropWhile p = l := by
  cases l with
  | nil => rfl
  | cons a l =>
    have hfirst : ¬p a = true := by
      rw [h a List.mem_cons_self]
      exact Bool.false_ne_true
    rw [List.dropWhile_cons_of_neg hfirst]

/-- Only blanks are trimmed. -/
theorem trimBlanks_eq {text : String} (h : ∀ c ∈ text.toList, isBlank c = false) : trimBlanks text = text := by
  have hreverse : ∀ c ∈ text.toList.reverse, isBlank c = false := fun c hc => h c (List.mem_reverse.1 hc)
  rw [trimBlanks, dropWhile_of_forall_not h, dropWhile_of_forall_not hreverse, List.reverse_reverse,
    String.ofList_toList]

namespace Decimal

@[simp]
theorem digit?_digitChar (d : Fin 10) : digit? (digitChar d) = some d := by
  revert d
  decide

theorem digitChar_visible (d : Fin 10) : isVisible (digitChar d) := by
  revert d
  decide

theorem digitChar_ne_plus (d : Fin 10) : digitChar d ≠ '+' := by
  revert d
  decide

theorem digitChar_ne_dash (d : Fin 10) : digitChar d ≠ '-' := by
  revert d
  decide

theorem digitChar_not_blank (d : Fin 10) : isBlank (digitChar d) = false := by
  revert d
  decide

theorem le_ofDigits (value : Nat) (ds : List (Fin 10)) : value ≤ ofDigits value ds := by
  induction ds generalizing value with
  | nil => exact Nat.le_refl _
  | cons d ds ih =>
    have hnext := ih (value * 10 + d.val)
    change value ≤ ofDigits (value * 10 + d.val) ds
    omega

theorem ofDigits_append (value : Nat) (ds es : List (Fin 10)) :
    ofDigits value (ds ++ es) = ofDigits (ofDigits value ds) es := by
  simp only [ofDigits, List.foldl_append]

/-- Reading stays below a bound as long as the value of all digits does. -/
theorem readDigits_map_digitChar (bound value : Nat) (ds : List (Fin 10))
    (h : ofDigits value ds < bound) :
    readDigits bound value (ds.map digitChar) = .ok (ofDigits value ds) := by
  induction ds generalizing value with
  | nil => rfl
  | cons d ds ih =>
    have hfit : value * 10 + d.val < bound :=
      Nat.lt_of_le_of_lt (le_ofDigits (value * 10 + d.val) ds) h
    simp only [List.map_cons, readDigits, digit?_digitChar, if_pos hfit]
    exact ih _ h

@[simp]
theorem ofDigits_digitsOf (n : Nat) : ofDigits 0 (digitsOf n) = n := by
  induction n using digitsOf.induct with
  | case1 n hn =>
    rw [digitsOf, if_pos hn]
    simp only [ofDigits, List.foldl_cons, List.foldl_nil, Fin.val_ofNat]
    omega
  | case2 n hn ih =>
    rw [digitsOf, if_neg hn, ofDigits_append, ih]
    simp only [ofDigits, List.foldl_cons, List.foldl_nil, Fin.val_ofNat]
    omega

theorem digitsOf_ne_nil (n : Nat) : digitsOf n ≠ [] := by
  rw [digitsOf]
  split <;> simp

theorem mem_digits {n : Nat} {c : Char} (h : c ∈ digits n) : ∃ d, c = digitChar d := by
  obtain ⟨d, -, rfl⟩ := List.mem_map.1 h
  exact ⟨d, rfl⟩

theorem digits_ne_dash (n : Nat) : ∀ c ∈ digits n, c ≠ '-' := by
  intro c hc
  obtain ⟨d, rfl⟩ := mem_digits hc
  exact digitChar_ne_dash d

theorem digits_visible {n : Nat} {c : Char} (h : c ∈ digits n) : isVisible c := by
  obtain ⟨d, rfl⟩ := mem_digits h
  exact digitChar_visible d

theorem ofNat_visible (n : Nat) : isVisibleText (ofNat n) := by
  intro c hc
  rw [ofNat, String.toList_ofList] at hc
  exact digits_visible hc

theorem ofUInt64_visible (n : UInt64) : isVisibleText (ofUInt64 n) :=
  ofNat_visible n.toNat

/-- A text that does not begin with a plus sign is read digit by digit. -/
theorem read_cons {bound : Nat} {c : Char} (cs : List Char) (h : c ≠ '+') :
    read bound (c :: cs) = readDigits bound 0 (c :: cs) := by
  unfold read
  split
  · contradiction
  · rename_i heq
    exact absurd (List.cons.inj heq).1 h
  · rename_i heq
    exact absurd (List.cons.inj heq).1 h
  · rfl

theorem read_digits {bound n : Nat} (h : n < bound) : read bound (digits n) = .ok n := by
  obtain ⟨d, ds, hds⟩ := List.exists_cons_of_ne_nil (digitsOf_ne_nil n)
  have hvalue : ofDigits 0 (d :: ds) = n := hds ▸ ofDigits_digitsOf n
  rw [digits, hds, List.map_cons, read_cons _ (digitChar_ne_plus d), ← List.map_cons,
    readDigits_map_digitChar _ _ _ (by rw [hvalue]; exact h), hvalue]

@[simp]
theorem readUInt64_ofUInt64 (n : UInt64) : readUInt64 (ofUInt64 n) = .ok n := by
  rw [readUInt64, ofUInt64, String.toList_ofList, read_digits n.toNat_lt_size]
  exact congrArg Except.ok UInt64.ofNat_toNat

end Decimal

namespace Hex

@[simp]
theorem digit?_digitChar (d : Fin 16) : digit? (digitChar d) = some d := by
  revert d
  decide

theorem digitChar_visible (d : Fin 16) : isVisible (digitChar d) := by
  revert d
  decide

/-- The two halves of a byte make its value. -/
theorem halves_eq (b : UInt8) : (highHalf b).val * 16 + (lowHalf b).val = b.toNat := by
  change b.toNat / 16 * 16 + b.toNat % 16 = b.toNat
  omega

theorem byte_of_halves (b : UInt8) : UInt8.ofNat ((highHalf b).val * 16 + (lowHalf b).val) = b := by
  rw [halves_eq, UInt8.ofNat_toNat]

theorem decodeOnto_encode (read bytes : List UInt8) :
    decodeOnto read (encode bytes) = some (read.reverse ++ bytes) := by
  induction bytes generalizing read with
  | nil => simp only [encode, List.flatMap_nil, decodeOnto, List.append_nil]
  | cons b bytes ih =>
    have hstep : encode (b :: bytes) =
        digitChar (highHalf b) :: digitChar (lowHalf b) :: encode bytes := by
      simp only [encode, List.flatMap_cons, encodeByte, List.cons_append, List.nil_append]
    rw [hstep]
    simp only [decodeOnto, digit?_digitChar, byte_of_halves, ih, List.reverse_cons,
      List.append_assoc, List.cons_append, List.nil_append]

@[simp]
theorem decode_encode (bytes : List UInt8) : decode (encode bytes) = some bytes := by
  rw [decode, decodeOnto_encode, List.reverse_nil, List.nil_append]

theorem encode_visible {bytes : List UInt8} {c : Char} (h : c ∈ encode bytes) : isVisible c := by
  obtain ⟨b, -, hc⟩ := List.mem_flatMap.1 h
  simp only [encodeByte, List.mem_cons, List.not_mem_nil, or_false] at hc
  rcases hc with rfl | rfl <;> exact digitChar_visible _

end Hex

end GraphBench
