import GraphBench.Json.Printer
import GraphBench.Json.Token
import GraphBench.Proofs.Text.Numerals

/-!
Numbers read back. The text of a number is one word, and reading this word gives its sign, its whole part, the digits
behind its point and its power again.
-/

namespace GraphBench

namespace Decimal

/-- A positive number has no leading zeros. -/
theorem digitsOf_eq_cons {n : Nat} (h : 0 < n) : ∃ d ds, digitsOf n = d :: ds ∧ d ≠ zeroDigit := by
  induction n using digitsOf.induct with
  | case1 n hn =>
    refine ⟨Fin.ofNat 10 n, [], by rw [digitsOf, if_pos hn], fun hzero => ?_⟩
    have hvalue : n % 10 = 0 := congrArg Fin.val hzero
    omega
  | case2 n hn ih =>
    obtain ⟨d, ds, hds, hd⟩ := ih (by omega)
    exact ⟨d, ds ++ [Fin.ofNat 10 n], by rw [digitsOf, if_neg hn, hds, List.cons_append], hd⟩

end Decimal

namespace Json

open Decimal

/-- No digit comes first in what follows some digits. -/
def EndsDigits (rest : List Char) : Prop :=
  ∀ c ∈ rest.head?, digit? c = none

theorem spanDigits_append {rest : List Char} (h : EndsDigits rest) (ds : List (Fin 10)) :
    spanDigits (ds.map digitChar ++ rest) = (ds, rest) := by
  induction ds with
  | nil =>
    cases rest with
    | nil => rfl
    | cons c cs =>
      have hc : digit? c = none := h c rfl
      rw [List.map_nil, List.nil_append, spanDigits, hc]
  | cons d ds ih =>
    simp [spanDigits, ih]

theorem spanDigits_digits {rest : List Char} (h : EndsDigits rest) (n : Nat) :
    spanDigits (digits n ++ rest) = (digitsOf n, rest) :=
  spanDigits_append h (digitsOf n)

theorem endsDigits_nil : EndsDigits [] := by
  rintro _ ⟨⟩

theorem endsDigits_cons {c : Char} (cs : List Char) (h : digit? c = none) : EndsDigits (c :: cs) := by
  rintro _ ⟨⟩
  exact h

/-- The digits of a number are a whole part, and their value is the number. -/
theorem wholeOf?_digitsOf (n : Nat) : wholeOf? (digitsOf n) = some n := by
  have hvalue := ofDigits_digitsOf n
  match hdigits : digitsOf n with
  | [] => exact absurd hdigits (digitsOf_ne_nil n)
  | [d] =>
    rw [hdigits, ofDigits, List.foldl_cons, List.foldl_nil] at hvalue
    rw [wholeOf?, ← hvalue, Nat.zero_mul, Nat.zero_add]
  | d :: e :: es =>
    -- zero has one digit only
    have hpositive : 0 < n := by
      refine Nat.pos_of_ne_zero fun hzero => ?_
      have hlength := congrArg List.length hdigits
      rw [hzero, digitsOf, if_pos (by decide)] at hlength
      simp at hlength
    obtain ⟨first, more, hmore, hfirst⟩ := digitsOf_eq_cons hpositive
    rw [hdigits] at hmore
    cases hmore
    rw [wholeOf?, if_neg hfirst, ← hdigits, ofDigits_digitsOf]
    exact List.cons_ne_nil e es

theorem unsigned?_digits (n : Nat) : powerOf?.unsigned? (digits n) = some (n : Int) := by
  have hspan := spanDigits_digits endsDigits_nil n
  obtain ⟨d, ds, hds⟩ := List.exists_cons_of_ne_nil (digitsOf_ne_nil n)
  rw [List.append_nil, hds] at hspan
  rw [powerOf?.unsigned?, hspan]
  simp only [← hds, ofDigits_digitsOf]

def powerText : Option Int → List Char
  | none => []
  | some (.ofNat p) => 'e' :: '+' :: digits p
  | some (.negSucc p) => 'e' :: '-' :: digits (p + 1)

theorem endsDigits_powerText (power : Option Int) : EndsDigits (powerText power) := by
  match power with
  | none => exact endsDigits_nil
  | some (.ofNat p) => exact endsDigits_cons _ (by decide)
  | some (.negSucc p) => exact endsDigits_cons _ (by decide)

theorem scaledOf?_powerText (negative : Bool) (whole : Nat) (fraction : List (Fin 10)) (power : Option Int) :
    scaledOf? negative whole fraction (powerText power) = some ⟨negative, whole, fraction, power⟩ := by
  match power with
  | none => rfl
  | some (.ofNat p) =>
    have hpower : powerOf? ('+' :: digits p) = some (.ofNat p) := unsigned?_digits p
    rw [powerText, scaledOf?, if_pos (.inl rfl), hpower, Option.map_some]
  | some (.negSucc p) =>
    have hpower : powerOf? ('-' :: digits (p + 1)) = some (.negSucc p) := by
      change (powerOf?.unsigned? (digits (p + 1))).map (- ·) = _
      rw [unsigned?_digits]
      rfl
    rw [powerText, scaledOf?, if_pos (.inl rfl), hpower, Option.map_some]

theorem not_endsWord_of_any {text : List Char} (h : text.any endsWord = false) {c : Char} (hc : c ∈ text) :
    endsWord c = false :=
  Bool.eq_false_iff.2 (List.any_eq_false.1 h c hc)

end Json

namespace JsonNumber

open Decimal Json

/-- What follows the whole part in the text of a number. -/
def tail (n : JsonNumber) : List Char :=
  (if n.fraction = [] then [] else '.' :: n.fraction.map digitChar) ++ powerText n.power

theorem text_eq (n : JsonNumber) :
    n.text = (if n.negative then ['-'] else []) ++ (digits n.whole ++ n.tail) := by
  rw [text, tail, List.append_assoc, List.append_assoc]
  rfl

/-- A number is read back from its text, without the sign. -/
theorem unsignedOf?_tail (n : JsonNumber) : unsignedOf? n.negative (digits n.whole ++ n.tail) = some n := by
  obtain ⟨negative, whole, fraction, power⟩ := n
  have hpower := scaledOf?_powerText negative whole fraction power
  cases fraction with
  | nil =>
    have htail : tail ⟨negative, whole, [], power⟩ = powerText power := rfl
    rw [htail, unsignedOf?, spanDigits_digits (endsDigits_powerText power), wholeOf?_digitsOf]
    -- a power does not begin with a point
    rcases power with _ | _ | _ <;> exact hpower
  | cons d ds =>
    have htail : tail ⟨negative, whole, d :: ds, power⟩ =
        '.' :: ((d :: ds).map digitChar ++ powerText power) := rfl
    have hends : EndsDigits ('.' :: ((d :: ds).map digitChar ++ powerText power)) := endsDigits_cons _ (by decide)
    rw [htail, unsignedOf?, spanDigits_digits hends, wholeOf?_digitsOf]
    simp only [spanDigits_append (endsDigits_powerText power), reduceCtorEq, ↓reduceIte, hpower]

/-- Reading the text of a number gives this number. -/
theorem numberOf?_text (n : JsonNumber) : numberOf? n.text = some n := by
  have hread := n.unsignedOf?_tail
  rw [text_eq]
  cases hnegative : n.negative with
  | true =>
    rw [hnegative] at hread
    exact hread
  | false =>
    rw [hnegative] at hread
    obtain ⟨d, ds, hds⟩ := List.exists_cons_of_ne_nil (digitsOf_ne_nil n.whole)
    have hdigits : digits n.whole = digitChar d :: ds.map digitChar := by rw [digits, hds, List.map_cons]
    rw [if_neg Bool.false_ne_true, List.nil_append, hdigits, List.cons_append, numberOf?, ← List.cons_append,
      ← hdigits, hread]
    -- no digit is a minus sign
    rintro cs hcs
    exact digitChar_ne_dash d (List.cons.inj hcs).1

theorem mem_powerText {power : Option Int} {c : Char} (h : c ∈ powerText power) :
    (∃ d, c = digitChar d) ∨ c ∈ ['e', '+', '-'] := by
  rcases power with _ | p | p <;> simp only [powerText, List.not_mem_nil, List.mem_cons] at h
  · rcases h with rfl | rfl | h
    · exact .inr (by decide)
    · exact .inr (by decide)
    · exact .inl (mem_digits h)
  · rcases h with rfl | rfl | h
    · exact .inr (by decide)
    · exact .inr (by decide)
    · exact .inl (mem_digits h)

/-- The characters of a number. -/
theorem mem_text {n : JsonNumber} {c : Char} (h : c ∈ n.text) :
    (∃ d, c = digitChar d) ∨ c ∈ ['e', '+', '-', '.'] := by
  rw [text_eq, tail, List.mem_append, List.mem_append, List.mem_append] at h
  rcases h with hsign | hwhole | hfraction | hpower
  · split at hsign
    · rw [List.mem_singleton.1 hsign]
      exact .inr (by decide)
    · cases hsign
  · exact .inl (mem_digits hwhole)
  · split at hfraction
    · cases hfraction
    · rcases List.mem_cons.1 hfraction with rfl | hfraction
      · exact .inr (by decide)
      · obtain ⟨d, -, rfl⟩ := List.mem_map.1 hfraction
        exact .inl ⟨d, rfl⟩
  · exact (mem_powerText hpower).imp_right (List.mem_append_left ['.'])

theorem text_ne_nil (n : JsonNumber) : n.text ≠ [] := by
  rw [text_eq, digits]
  simp [digitsOf_ne_nil]

/-- A number is one word. -/
theorem not_endsWord_of_mem_text {n : JsonNumber} {c : Char} (h : c ∈ n.text) : endsWord c = false := by
  have hdigit : ∀ d, endsWord (digitChar d) = false := by decide
  rcases mem_text h with ⟨d, rfl⟩ | h
  · exact hdigit d
  · exact not_endsWord_of_any rfl h

/-- The word is none of the others, which have letters that no number has. -/
theorem atomOf?_text (n : JsonNumber) : atomOf? n.text = some (.number n) := by
  have hletter {c : Char} (hdigit : ∀ d, c ≠ digitChar d) (hother : c ∉ ['e', '+', '-', '.']) : c ∉ n.text := by
    intro hmem
    rcases mem_text hmem with ⟨d, hd⟩ | h
    · exact hdigit d hd
    · exact hother h
  have hu : 'u' ∉ n.text := hletter (by decide) (by decide)
  have hs : 's' ∉ n.text := hletter (by decide) (by decide)
  have hnull : n.text ≠ ['n', 'u', 'l', 'l'] := fun heq => hu (heq ▸ by decide)
  have htrue : n.text ≠ ['t', 'r', 'u', 'e'] := fun heq => hu (heq ▸ by decide)
  have hfalse : n.text ≠ ['f', 'a', 'l', 's', 'e'] := fun heq => hs (heq ▸ by decide)
  rw [atomOf?, if_neg hnull, if_neg htrue, if_neg hfalse, numberOf?_text, Option.map_some]

end JsonNumber

end GraphBench
