import Mathlib.Data.List.Basic
import Mathlib.Tactic

/-!
The entries of a circular array from one position on: a window of up to all of its places. Unlike in a
queue that is read off two positions, the number of entries is known, so the window can be full.
-/

namespace TwinpassGateway.Foundation.Window

variable {α β : Type*} {buf : Nat → α} {n r k i j : Nat}

def place (n r i : Nat) : Nat := (r + i) % n

def window (buf : Nat → α) (n r k : Nat) : List α := (List.range k).map fun i => buf (place n r i)

theorem place_lt (start : r < n) : place n r i < n := Nat.mod_lt _ (Nat.zero_lt_of_lt start)

@[simp] theorem place_zero (start : r < n) : place n r 0 = r := Nat.mod_eq_of_lt start

theorem place_self (start : r < n) : place n r n = r := by
  rw [place, Nat.add_mod_right, Nat.mod_eq_of_lt start]

theorem place_succ : place n (place n r 1) i = place n r (i + 1) := by
  unfold place
  rw [Nat.mod_add_mod, Nat.add_assoc, Nat.add_comm 1 i]

theorem place_next (i : Nat) : place n (place n r i) 1 = place n r (i + 1) := by
  unfold place
  rw [Nat.mod_add_mod, Nat.add_assoc]

theorem place_ne (less : i < j) (round : j < i + n) : place n r i ≠ place n r j := by
  intro same
  have divides : n ∣ r + j - (r + i) := (Nat.modEq_iff_dvd' (by omega)).mp same
  have bound := Nat.le_of_dvd (by omega) divides
  omega

theorem place_ne_start (start : r < n) (inside : i + 1 < n) : place n r (i + 1) ≠ r := by
  have apart := place_ne (r := r) (Nat.zero_lt_succ i) (by omega : i + 1 < 0 + n)
  rw [place_zero start] at apart
  exact apart.symm

/-- A store at the first place is not seen behind it. -/
theorem update_start (start : r < n) (inside : i + 1 < n) (x : α) :
    Function.update buf r x (place n r (i + 1)) = buf (place n r (i + 1)) :=
  Function.update_of_ne (place_ne_start start inside) x buf

/-! ### Windows -/

theorem window_snoc : window buf n r (k + 1) = window buf n r k ++ [buf (place n r k)] := by
  rw [window, List.range_succ, List.map_append, List.map_singleton]
  rfl

theorem window_cons (start : r < n) :
    window buf n r (k + 1) = buf r :: window buf n (place n r 1) k := by
  rw [window, List.range_succ_eq_map, List.map_cons, List.map_map, place_zero start]
  congr 1
  apply List.map_congr_left
  intro i _
  exact congrArg buf place_succ.symm

theorem window_map (f : α → β) : (window buf n r k).map f = window (f ∘ buf) n r k := by
  rw [window, List.map_map]
  rfl

theorem window_congr {buf' : Nat → α} (agree : ∀ i < k, buf (place n r i) = buf' (place n r i)) :
    window buf n r k = window buf' n r k := by
  apply List.map_congr_left
  intro i member
  exact agree i (List.mem_range.mp member)

/-- A store at a place that is not in the window. -/
theorem window_update_of_ne {p : Nat} (outside : ∀ i < k, place n r i ≠ p) (x : α) :
    window (Function.update buf p x) n r k = window buf n r k :=
  window_congr fun i inside => Function.update_of_ne (outside i inside) x buf

theorem window_push (room : k < n) (x : α) :
    window (Function.update buf (place n r k) x) n r (k + 1) = window buf n r k ++ [x] := by
  rw [window_snoc, Function.update_self, window_update_of_ne fun i inside => place_ne inside (by omega)]

/-- The place that the window has left can be cleared. -/
theorem window_update_left (start : r < n) (fits : k + 1 ≤ n) (x : α) :
    window (Function.update buf r x) n (place n r 1) k = window buf n (place n r 1) k := by
  apply window_update_of_ne
  intro i inside
  rw [place_succ]
  exact place_ne_start start (by omega)

end TwinpassGateway.Foundation.Window
