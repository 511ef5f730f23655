import Mathlib.Data.List.Basic
import Mathlib.Tactic

/-!
Cutting a list into blocks of equal length: the complete blocks, and the elements left over.
-/

namespace TwinpassGateway.Foundation

variable {α : Type*} {n : Nat} {xs ys : List α}

def takeBlocks (n : Nat) : Nat → List α → List (List α)
  | 0, _ => []
  | k + 1, xs => xs.take n :: takeBlocks n k (xs.drop n)

def blocks (n : Nat) (xs : List α) : List (List α) := takeBlocks n (xs.length / n) xs

def remainder (n : Nat) (xs : List α) : List α := xs.drop (n * (xs.length / n))

theorem blocks_short (short : xs.length < n) : blocks n xs = [] ∧ remainder n xs = xs := by
  have none : xs.length / n = 0 := Nat.div_eq_of_lt short
  simp [blocks, remainder, none, takeBlocks]

theorem blocks_long (positive : 0 < n) (long : n ≤ xs.length) :
    blocks n xs = xs.take n :: blocks n (xs.drop n) ∧ remainder n xs = remainder n (xs.drop n) := by
  have count : xs.length / n = (xs.drop n).length / n + 1 := by
    rw [List.length_drop, ← Nat.add_div_right _ positive, Nat.sub_add_cancel long]
  refine ⟨by rw [blocks, count, takeBlocks, blocks], ?_⟩
  rw [remainder, count, remainder, List.drop_drop, Nat.mul_add, Nat.mul_one, Nat.add_comm]

theorem blocks_single (positive : 0 < n) (whole : xs.length = n) : blocks n xs = [xs] := by
  obtain ⟨first, -⟩ := blocks_long positive (Nat.le_of_eq whole.symm)
  have short : (xs.drop n).length < n := by
    rw [List.length_drop]
    omega
  rw [first, (blocks_short short).1, List.take_of_length_le (Nat.le_of_eq whole)]

theorem blocks_cons (positive : 0 < n) (whole : xs.length = n) : blocks n (xs ++ ys) = xs :: blocks n ys := by
  have long : n ≤ (xs ++ ys).length := by rw [List.length_append]; omega
  obtain ⟨first, -⟩ := blocks_long positive long
  rw [first, ← whole, List.take_left, List.drop_left]

theorem remainder_length (n : Nat) (xs : List α) : (remainder n xs).length = xs.length % n := by
  rw [remainder, List.length_drop]
  have := Nat.div_add_mod xs.length n
  omega

theorem take_of_mem_takeBlocks {k : Nat} {block : List α} (member : block ∈ takeBlocks n k xs) :
    block.take n = block := by
  induction k generalizing xs with
  | zero => cases member
  | succ k ih =>
    rcases List.mem_cons.mp member with rfl | later
    · rw [List.take_take, Nat.min_self]
    · exact ih later

theorem blocks_append (positive : 0 < n) :
    blocks n (xs ++ ys) = blocks n xs ++ blocks n (remainder n xs ++ ys) ∧
      remainder n (xs ++ ys) = remainder n (remainder n xs ++ ys) := by
  induction size : xs.length using Nat.strong_induction_on generalizing xs with
  | _ size ih =>
    subst size
    rcases Nat.lt_or_ge xs.length n with short | long
    · obtain ⟨none, all⟩ := blocks_short short
      rw [none, all]
      exact ⟨rfl, rfl⟩
    · obtain ⟨first, rest⟩ := blocks_long positive long
      have longer : n ≤ (xs ++ ys).length := by simp; omega
      obtain ⟨first', rest'⟩ := blocks_long positive longer
      have shorter : (xs.drop n).length < xs.length := by rw [List.length_drop]; omega
      obtain ⟨later, left⟩ := ih _ shorter rfl
      have cut : (xs ++ ys).drop n = xs.drop n ++ ys := by
        rw [List.drop_append_of_le_length long]
      have head : (xs ++ ys).take n = xs.take n := List.take_append_of_le_length long
      rw [first, rest, first', rest', cut, head, later, left]
      exact ⟨rfl, rfl⟩

theorem blocks_flatten (positive : 0 < n) (xs : List α) : (blocks n xs).flatten ++ remainder n xs = xs := by
  induction size : xs.length using Nat.strong_induction_on generalizing xs with
  | _ size ih =>
    subst size
    rcases Nat.lt_or_ge xs.length n with short | long
    · obtain ⟨none, all⟩ := blocks_short short
      rw [none, all]
      rfl
    · obtain ⟨first, rest⟩ := blocks_long positive long
      have later := ih _ (show (xs.drop n).length < xs.length by rw [List.length_drop]; omega) _ rfl
      rw [first, rest, List.flatten_cons, List.append_assoc, later, List.take_append_drop]

/-- A list of complete blocks is known by its blocks. -/
theorem eq_of_blocks_eq (positive : 0 < n) (whole : n ∣ xs.length) (whole' : n ∣ ys.length)
    (same : blocks n xs = blocks n ys) : xs = ys := by
  have nothing : ∀ zs : List α, n ∣ zs.length → remainder n zs = [] := by
    intro zs divides
    apply List.eq_nil_of_length_eq_zero
    rw [remainder_length, Nat.mod_eq_zero_of_dvd divides]
  rw [← blocks_flatten positive xs, ← blocks_flatten positive ys, same, nothing _ whole, nothing _ whole']

theorem takeBlocks_append {k : Nat} (within : n * k ≤ xs.length) (ys : List α) :
    takeBlocks n k (xs ++ ys) = takeBlocks n k xs := by
  induction k generalizing xs with
  | zero => rfl
  | succ k ih =>
    rw [Nat.mul_succ] at within
    rw [takeBlocks, takeBlocks, List.take_append_of_le_length (by omega), List.drop_append_of_le_length (by omega)]
    rw [ih (by rw [List.length_drop]; omega)]

theorem blocks_eq_takeBlocks (n : Nat) (xs : List α) : blocks n xs = takeBlocks n (xs.length / n) xs := rfl

theorem takeBlocks_length (n k : Nat) (xs : List α) : (takeBlocks n k xs).length = k := by
  induction k generalizing xs with
  | zero => rfl
  | succ k ih => exact congrArg (· + 1) (ih _)

/-! ### A transform of the blocks -/

section Transform

variable {β : Type*} {parse : List α → β} {bytes : β → List α}

theorem blocks_flatMap (positive : 0 < n) (size : ∀ x, (bytes x).length = n) (blocks_ : List β) :
    blocks n (blocks_.flatMap bytes) = blocks_.map bytes := by
  induction blocks_ with
  | nil => exact (blocks_short positive).1
  | cons x rest ih => rw [List.flatMap_cons, blocks_cons positive (size x), ih, List.map_cons]

theorem length_of_mem_blocks (positive : 0 < n) {block : List α} (member : block ∈ blocks n xs) :
    block.length = n := by
  induction size : xs.length using Nat.strong_induction_on generalizing xs with
  | _ size ih =>
    subst size
    obtain short | long := Nat.lt_or_ge xs.length n
    · rw [(blocks_short short).1] at member
      cases member
    · rw [(blocks_long positive long).1] at member
      obtain rfl | later := List.mem_cons.mp member
      · exact List.length_take_of_le long
      · exact ih _ (by rw [List.length_drop]; omega) later rfl

/-- Parsing the blocks and writing them again, with a transform between and then its inverse. -/
theorem transform_round_trip (positive : 0 < n) (size : ∀ x, (bytes x).length = n) (back : ∀ x, parse (bytes x) = x)
    (whole : ∀ block : List α, block.length = n → bytes (parse block) = block) {f g : List β → List β}
    (undo : ∀ ys, g (f ys) = ys) (aligned : n ∣ xs.length) :
    (g ((blocks n ((f ((blocks n xs).map parse)).flatMap bytes)).map parse)).flatMap bytes = xs := by
  have middle (ys : List β) : (ys.map bytes).map parse = ys := by
    rw [List.map_map]
    exact (List.map_congr_left fun x _ => back x).trans (List.map_id ys)
  have same : ((blocks n xs).map parse).flatMap bytes = (blocks n xs).flatten := by
    rw [List.flatMap_map, List.flatMap_def]
    exact congrArg List.flatten
      ((List.map_congr_left fun block member => whole block (length_of_mem_blocks positive member)).trans (List.map_id _))
  have nothing : remainder n xs = [] := by
    apply List.eq_nil_of_length_eq_zero
    rw [remainder_length, Nat.mod_eq_zero_of_dvd aligned]
  have parts := blocks_flatten positive xs
  rw [nothing, List.append_nil] at parts
  rw [blocks_flatMap positive size, middle, undo, same, parts]

end Transform

end TwinpassGateway.Foundation
