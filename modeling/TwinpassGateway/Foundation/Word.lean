import Mathlib.Algebra.GroupWithZero.Nat
import Mathlib.Data.Nat.Notation

/-!
Machine words.
-/

namespace TwinpassGateway.Foundation

abbrev U8 := BitVec 8

abbrev U32 := BitVec 32

-- The numerals of small index types get their instance by name, so that no definition carries a proof of it.
@[instance] theorem four_neZero : NeZero 4 := ⟨Nat.succ_ne_zero 3⟩

@[instance] theorem five_neZero : NeZero 5 := ⟨Nat.succ_ne_zero 4⟩

/-- Wrap-around of `u32` arithmetic. -/
def u32 (n : Nat) : Nat := n % 2 ^ 32

theorem u32_eq {n : Nat} (h : n < 2 ^ 32) : u32 n = n := Nat.mod_eq_of_lt h

def be32 (bytes : List U8) : U32 := bytes.getD 0 0 ++ bytes.getD 1 0 ++ bytes.getD 2 0 ++ bytes.getD 3 0

def bytes32 (w : U32) : List U8 := [w.extractLsb' 24 8, w.extractLsb' 16 8, w.extractLsb' 8 8, w.extractLsb' 0 8]

theorem bytes32_length (w : U32) : (bytes32 w).length = 4 := rfl

theorem be32_bytes32 (w : U32) : be32 (bytes32 w) = w := by
  show w.extractLsb' 24 8 ++ w.extractLsb' 16 8 ++ w.extractLsb' 8 8 ++ w.extractLsb' 0 8 = w
  apply BitVec.eq_of_getLsbD_eq
  intro i below
  simp only [BitVec.getLsbD_append, BitVec.getLsbD_extractLsb']
  grind

theorem bytes32_be32 (a b c d : U8) (rest : List U8) : bytes32 (be32 (a :: b :: c :: d :: rest)) = [a, b, c, d] := by
  have byte (x : U32) (k : Nat) (y : U8) (same : ∀ i < 8, x.getLsbD (k + i) = y.getLsbD i) : x.extractLsb' k 8 = y := by
    apply BitVec.eq_of_getLsbD_eq
    intro i below
    rw [BitVec.getLsbD_extractLsb', decide_eq_true below, Bool.true_and]
    exact same i below
  have word : be32 (a :: b :: c :: d :: rest) = a ++ b ++ c ++ d := rfl
  rw [word]
  unfold bytes32
  rw [byte _ 24 a, byte _ 16 b, byte _ 8 c, byte _ 0 d] <;>
    · intro i below
      simp only [BitVec.getLsbD_append]
      grind

end TwinpassGateway.Foundation
