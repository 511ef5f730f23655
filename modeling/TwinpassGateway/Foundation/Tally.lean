import Mathlib.Algebra.BigOperators.Group.List.Basic
import Mathlib.Tactic

/-!
Totals over a list of places, and what changing one place does to them.
-/

namespace TwinpassGateway.Foundation

variable {α M : Type*} [AddCommMonoid M] {f g : α → M} {xs : List α}

def tally (f : α → M) (xs : List α) : M := (xs.map f).sum

@[simp] theorem tally_nil (f : α → M) : tally f [] = 0 := rfl

@[simp] theorem tally_cons (f : α → M) (x : α) (xs : List α) : tally f (x :: xs) = f x + tally f xs :=
  List.sum_cons

theorem tally_congr (same : ∀ x ∈ xs, f x = g x) : tally f xs = tally g xs := by
  rw [tally, tally, List.map_congr_left same]

theorem tally_eq_zero (none : ∀ x ∈ xs, f x = 0) : tally f xs = 0 := by
  induction xs with
  | nil => rfl
  | cons x rest ih =>
    rw [tally_cons, none x List.mem_cons_self, ih fun y member => none y (List.mem_cons_of_mem _ member), add_zero]

theorem tally_map {β : Type*} (f : β → M) (k : α → β) (xs : List α) : tally f (xs.map k) = tally (f ∘ k) xs := by
  rw [tally, List.map_map]
  rfl

theorem tally_set {i : Nat} {old : α} (found : xs[i]? = some old) (new : α) :
    tally f (xs.set i new) + f old = tally f xs + f new := by
  induction xs generalizing i with
  | nil => simp at found
  | cons x rest ih =>
    cases i with
    | zero =>
      obtain rfl : x = old := by simpa using found
      simp only [List.set_cons_zero, tally_cons]
      abel
    | succ i =>
      have later := ih (i := i) (by simpa using found)
      simp only [List.set_cons_succ, tally_cons]
      rw [add_assoc, later, add_assoc]

theorem mem_modify {g : α → α} {i : Nat} {y : α} (member : y ∈ xs.modify i g) : y ∈ xs ∨ ∃ x ∈ xs, y = g x := by
  induction xs generalizing i with
  | nil => simp at member
  | cons x rest ih =>
    cases i with
    | zero =>
      rw [List.modify_zero_cons] at member
      rcases List.mem_cons.mp member with rfl | later
      · exact Or.inr ⟨x, List.mem_cons_self, rfl⟩
      · exact Or.inl (List.mem_cons_of_mem _ later)
    | succ i =>
      rw [List.modify_succ_cons] at member
      rcases List.mem_cons.mp member with rfl | later
      · exact Or.inl List.mem_cons_self
      · rcases ih later with before | ⟨x', inside, same⟩
        · exact Or.inl (List.mem_cons_of_mem _ before)
        · exact Or.inr ⟨x', List.mem_cons_of_mem _ inside, same⟩

theorem tally_modify {k : α → α} (same : ∀ x ∈ xs, f (k x) = f x) (i : Nat) : tally f (xs.modify i k) = tally f xs := by
  induction xs generalizing i with
  | nil => cases i <;> rfl
  | cons x rest ih =>
    cases i with
    | zero => rw [List.modify_zero_cons, tally_cons, tally_cons, same x List.mem_cons_self]
    | succ i =>
      rw [List.modify_succ_cons, tally_cons, tally_cons, ih fun y member => same y (List.mem_cons_of_mem _ member)]

theorem tally_add (f g : α → M) (xs : List α) : tally (fun x => f x + g x) xs = tally f xs + tally g xs := by
  induction xs with
  | nil => simp
  | cons x rest ih =>
    rw [tally_cons, tally_cons, tally_cons, ih]
    abel

/-- What comes in is gone or still here: one place changes, with something coming in and something going. -/
theorem balance_step {N : Type*} [AddCancelCommMonoid N] {total gone here here' old new : N} (gain loss : N)
    (balanced : total = gone + here) (moved : here' + old = here + new) (change : old + gain = new + loss) :
    total + gain = gone + loss + here' := by
  have same : here + gain + new = loss + here' + new := by
    calc here + gain + new = here + new + gain := by abel
      _ = here' + (old + gain) := by rw [← moved, add_assoc]
      _ = loss + here' + new := by rw [change]; abel
  rw [balanced, add_assoc, add_assoc, add_right_cancel same]

end TwinpassGateway.Foundation
