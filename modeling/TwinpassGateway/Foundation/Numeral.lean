import Mathlib.Data.Nat.Digits.Lemmas
import TwinpassGateway.Foundation.CharArray

/-!
Numbers as `printf` writes them: the digits of a numeral, how many there are, and the number that they give when they are
read again from the left.
-/

namespace TwinpassGateway.Foundation

def digitChar (d : Nat) : U8 := if d < 10 then BitVec.ofNat 8 (0x30 + d) else BitVec.ofNat 8 (0x37 + d)

/-- The digits of a number, the last one first as they are found, and `0` for zero. -/
def lowDigits (base n : Nat) : List Nat := if n = 0 then [0] else Nat.digits base n

def numeral (base n : Nat) : List U8 := (lowDigits base n).reverse.map digitChar

/-- The conversion `d`. -/
def signedNumeral (v : Int) : List U8 := if v < 0 then ascii '-' :: numeral 10 v.natAbs else numeral 10 v.natAbs

/-- A numeral with zeros in front, up to a width. -/
def paddedNumeral (width base n : Nat) : List U8 :=
  List.replicate (width - (numeral base n).length) (digitChar 0) ++ numeral base n

variable {base n k : Nat} {c : U8}

theorem ofDigits_lowDigits (base n : Nat) : Nat.ofDigits base (lowDigits base n) = n := by
  unfold lowDigits
  split
  · rename_i zero
    rw [zero]
    exact Nat.ofDigits_singleton
  · exact Nat.ofDigits_digits base n

theorem lowDigits_lt (base_gt : 1 < base) {d : Nat} (member : d ∈ lowDigits base n) : d < base := by
  unfold lowDigits at member
  split at member
  · rw [List.mem_singleton.mp member]
    exact Nat.lt_trans Nat.zero_lt_one base_gt
  · exact Nat.digits_lt_base base_gt member

theorem mem_numeral (base_gt : 1 < base) (member : c ∈ numeral base n) : ∃ d < base, c = digitChar d := by
  obtain ⟨d, listed, rfl⟩ := List.mem_map.mp member
  exact ⟨d, lowDigits_lt base_gt (List.mem_reverse.mp listed), rfl⟩

theorem numeral_ne_nil (base n : Nat) : numeral base n ≠ [] := by
  unfold numeral lowDigits
  split
  · exact List.cons_ne_nil _ _
  · rename_i nonzero
    rw [ne_eq, List.map_eq_nil_iff, List.reverse_eq_nil_iff]
    exact Nat.digits_ne_nil_iff_ne_zero.mpr nonzero

theorem numeral_length_le (base_gt : 1 < base) (some_digit : 0 < k) (below : n < base ^ k) :
    (numeral base n).length ≤ k := by
  rw [numeral, List.length_map, List.length_reverse, lowDigits]
  split
  · exact some_digit
  · exact (Nat.digits_length_le_iff base_gt n).mpr below

theorem paddedNumeral_length_le (base_gt : 1 < base) (some_digit : 0 < k) (below : n < base ^ k) :
    (paddedNumeral k base n).length ≤ k := by
  have short := numeral_length_le base_gt some_digit below
  rw [paddedNumeral, List.length_append, List.length_replicate]
  omega

theorem signedNumeral_natCast (n : Nat) : signedNumeral n = numeral 10 n := if_neg (Int.not_lt.mpr (Int.natCast_nonneg n))

/-! ### Reading a numeral -/

def readDigits (base : Nat) (read : Nat) (digits : List Nat) : Nat := digits.foldl (fun acc d => acc * base + d) read

theorem readDigits_reverse (base : Nat) (digits : List Nat) :
    readDigits base 0 digits.reverse = Nat.ofDigits base digits := by
  rw [readDigits, List.foldl_reverse, Nat.ofDigits_eq_foldr]
  congr 1
  funext d acc
  rw [Nat.mul_comm, Nat.add_comm]
  rfl

/-- The digits of a numeral give its number. -/
theorem readDigits_lowDigits (base n : Nat) : readDigits base 0 (lowDigits base n).reverse = n := by
  rw [readDigits_reverse, ofDigits_lowDigits]

/-- Zeros in front do not change it. -/
theorem readDigits_zeros (base zeros : Nat) (digits : List Nat) :
    readDigits base 0 (List.replicate zeros 0 ++ digits) = readDigits base 0 digits := by
  induction zeros with
  | zero => rfl
  | succ zeros ih =>
    rw [List.replicate_succ, List.cons_append, readDigits, List.foldl_cons, Nat.zero_mul, Nat.add_zero]
    exact ih

end TwinpassGateway.Foundation
