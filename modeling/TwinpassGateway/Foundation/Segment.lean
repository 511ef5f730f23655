import Mathlib.Data.List.Basic
import Mathlib.Tactic

/-!
Lists held in consecutive cells of a memory, and blocks laid one after the other.
-/

namespace TwinpassGateway.Foundation

variable {α : Type*} {mem mem' : Nat → α} {p : Nat} {xs ys : List α}

def Holds (mem : Nat → α) (p : Nat) (xs : List α) : Prop :=
  ∀ i (h : i < xs.length), mem (p + i) = xs[i]

@[simp] theorem holds_nil : Holds mem p [] := fun _ h => absurd h (Nat.not_lt_zero _)

theorem holds_append : Holds mem p (xs ++ ys) ↔ Holds mem p xs ∧ Holds mem (p + xs.length) ys := by
  constructor
  · intro held
    refine ⟨fun i h => ?_, fun i h => ?_⟩
    · rw [held i (by simp; omega), List.getElem_append_left h]
    · rw [Nat.add_assoc, held (xs.length + i) (by simp; omega), List.getElem_append_right (by omega)]
      simp
  · rintro ⟨left, right⟩ i h
    by_cases before : i < xs.length
    · rw [List.getElem_append_left before, left i before]
    · rw [List.getElem_append_right (by omega), ← right (i - xs.length) (by simp at h; omega)]
      congr 1
      omega

theorem Holds.frame (held : Holds mem p xs)
    (same : ∀ i, p ≤ i → i < p + xs.length → mem' i = mem i) : Holds mem' p xs := by
  intro i h
  rw [same (p + i) (by omega) (by omega), held i h]

theorem Holds.read (held : Holds mem p xs) :
    (List.range xs.length).map (fun i => mem (p + i)) = xs := by
  apply List.ext_getElem (by simp)
  intro i h _
  simpa using held i (by simpa using h)

theorem Holds.getD (held : Holds mem p xs) (i : Nat) (h : i < xs.length) (d : α) :
    mem (p + i) = xs.getD i d := by
  rw [held i h, List.getD_eq_getElem?_getD, List.getElem?_eq_getElem h, Option.getD_some]

def region (mem : Nat → α) (p n : Nat) : List α := (List.range n).map fun i => mem (p + i)

theorem region_succ (mem : Nat → α) (p n : Nat) : region mem p (n + 1) = region mem p n ++ [mem (p + n)] := by
  rw [region, List.range_succ, List.map_append]
  rfl

theorem region_cons (mem : Nat → α) (p n : Nat) : region mem p (n + 1) = mem p :: region mem (p + 1) n := by
  rw [region, List.range_succ_eq_map, List.map_cons, List.map_map, Nat.add_zero]
  congr 1
  apply List.map_congr_left
  intro i _
  show mem (p + (i + 1)) = mem (p + 1 + i)
  rw [Nat.add_comm i 1, Nat.add_assoc]

theorem region_frame {n : Nat} (same : ∀ i, p ≤ i → i < p + n → mem' i = mem i) : region mem' p n = region mem p n := by
  apply List.map_congr_left
  intro i member
  have inside := List.mem_range.mp member
  exact same (p + i) (by omega) (by omega)

theorem region_update_outside {n q : Nat} (outside : q < p ∨ p + n ≤ q) (x : α) :
    region (Function.update mem q x) p n = region mem p n := by
  apply region_frame
  intro i low high
  apply Function.update_of_ne
  omega

theorem region_update_behind {n q : Nat} (behind : q = p + n) (x : α) :
    region (Function.update mem q x) p (n + 1) = region mem p n ++ [x] := by
  rw [region_succ, region_update_outside (.inr (Nat.le_of_eq behind.symm)), behind, Function.update_self]

/-- Blocks laid one after the other from `p` on, each with its position. -/
def placed (p : Nat) : List (List α) → List (Nat × List α)
  | [] => []
  | block :: rest => (p, block) :: placed (p + block.length) rest

@[simp] theorem placed_blocks (p : Nat) (blocks : List (List α)) : (placed p blocks).map Prod.snd = blocks := by
  induction blocks generalizing p with
  | nil => rfl
  | cons block rest ih => rw [placed, List.map_cons, ih]

theorem placed_append (p : Nat) (xs ys : List (List α)) :
    placed p (xs ++ ys) = placed p xs ++ placed (p + xs.flatten.length) ys := by
  induction xs generalizing p with
  | nil => simp [placed]
  | cons block rest ih =>
    simp only [List.cons_append, placed, ih, List.flatten_cons, List.length_append, Nat.add_assoc]

theorem placed_last (p : Nat) (blocks : List (List α)) (block : List α) :
    (placed p (blocks ++ [block]))[blocks.length]? = some (p + blocks.flatten.length, block) := by
  have count : (placed p blocks).length = blocks.length := by
    rw [← List.length_map, placed_blocks]
  rw [placed_append, ← count, List.getElem?_append_right (Nat.le_refl _), Nat.sub_self]
  rfl

theorem placed_bounds {blocks : List (List α)} {e : Nat × List α} (member : e ∈ placed p blocks) :
    p ≤ e.1 ∧ e.1 + e.2.length ≤ p + blocks.flatten.length := by
  induction blocks generalizing p with
  | nil => simp [placed] at member
  | cons block rest ih =>
    simp only [placed, List.mem_cons] at member
    simp only [List.flatten_cons, List.length_append]
    rcases member with rfl | member
    · exact ⟨Nat.le_refl _, by simp⟩
    · have := ih member
      omega

end TwinpassGateway.Foundation
