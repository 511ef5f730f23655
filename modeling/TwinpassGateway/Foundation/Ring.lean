import Mathlib.Data.List.Basic
import Mathlib.Tactic

/-!
Circular queues in `max + 1` slots, of which one stays empty: positions, the number of entries
between a read and a write position, and the entries themselves.
-/

namespace TwinpassGateway.Foundation.Ring

variable {α : Type*} {buf : Nat → α} {max r w : Nat}

def next (max pos : Nat) : Nat := if pos < max then pos + 1 else 0

def count (max r w : Nat) : Nat := if r ≤ w then w - r else w + 1 + max - r

/-- The slot `i` places after the read position. -/
def slot (max r i : Nat) : Nat := if r + i ≤ max then r + i else r + i - (max + 1)

def items (buf : Nat → α) (max r w : Nat) : List α :=
  (List.range (count max r w)).map fun i => buf (slot max r i)

theorem next_le (read : r ≤ max) : next max r ≤ max := by
  unfold next
  split <;> omega

theorem count_le (read : r ≤ max) (write : w ≤ max) : count max r w ≤ max := by
  unfold count
  split <;> omega

@[simp] theorem count_self : count max r r = 0 := by simp [count]

theorem count_next_write (read : r ≤ max) (write : w ≤ max) (room : next max w ≠ r) :
    count max r (next max w) = count max r w + 1 := by
  unfold next count at *
  split_ifs at * <;> omega

theorem count_next_read (read : r ≤ max) (write : w ≤ max) (filled : r ≠ w) :
    count max r w = count max (next max r) w + 1 := by
  unfold next count
  split_ifs <;> omega

theorem count_pos (read : r ≤ max) (write : w ≤ max) (filled : r ≠ w) : 0 < count max r w := by
  have := count_next_read read write filled
  omega

theorem full_iff (read : r ≤ max) (write : w ≤ max) : next max w = r ↔ count max r w = max := by
  unfold next count
  split_ifs <;> omega

theorem slot_count (read : r ≤ max) (write : w ≤ max) : slot max r (count max r w) = w := by
  unfold slot count
  split_ifs <;> omega

theorem slot_ne_write (read : r ≤ max) {i : Nat} (inside : i < count max r w) :
    slot max r i ≠ w := by
  unfold slot count at *
  split_ifs at * <;> omega

theorem slot_succ (read : r ≤ max) {i : Nat} (inside : i < max) : slot max r (i + 1) = slot max (next max r) i := by
  unfold slot next
  split_ifs <;> omega

theorem slot_next_ne_read (read : r ≤ max) (write : w ≤ max) {i : Nat}
    (inside : i < count max (next max r) w) : slot max (next max r) i ≠ r := by
  unfold slot next count at *
  split_ifs at * <;> omega

@[simp] theorem items_self : items buf max r r = [] := by simp [items]

@[simp] theorem items_length : (items buf max r w).length = count max r w := by simp [items]

theorem items_push (read : r ≤ max) (write : w ≤ max) (room : next max w ≠ r) :
    items buf max r (next max w) = items buf max r w ++ [buf w] := by
  rw [items, count_next_write read write room, List.range_succ, List.map_append, List.map_singleton,
    slot_count read write]
  rfl

theorem items_pop (read : r ≤ max) (write : w ≤ max) (filled : r ≠ w) :
    items buf max r w = buf r :: items buf max (next max r) w := by
  have rest := count_next_read read write filled
  have bound := count_le read write
  rw [items, rest, List.range_succ_eq_map, List.map_cons, List.map_map]
  have first : slot max r 0 = r := by simp [slot, read]
  rw [first, items]
  congr 1
  apply List.map_congr_left
  intro i member
  have inside := List.mem_range.mp member
  exact congrArg buf (slot_succ read (by omega))

/-- A store into the slot that stays empty does not touch the entries. -/
theorem items_update_write (read : r ≤ max) (x : α) :
    items (Function.update buf w x) max r w = items buf max r w := by
  apply List.map_congr_left
  intro i member
  exact Function.update_of_ne (slot_ne_write read (List.mem_range.mp member)) _ _

theorem items_push_update (read : r ≤ max) (write : w ≤ max) (room : next max w ≠ r) (x : α) :
    items (Function.update buf w x) max r (next max w) = items buf max r w ++ [x] := by
  rw [items_push read write room, items_update_write read, Function.update_self]

theorem items_update_read (read : r ≤ max) (write : w ≤ max) (x : α) :
    items (Function.update buf r x) max (next max r) w = items buf max (next max r) w := by
  apply List.map_congr_left
  intro i member
  exact Function.update_of_ne (slot_next_ne_read read write (List.mem_range.mp member)) _ _

end TwinpassGateway.Foundation.Ring
