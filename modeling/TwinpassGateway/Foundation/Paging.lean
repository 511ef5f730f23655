import Mathlib.Data.List.Basic

/-!
A text in pieces that is read page by page: the pieces that fit on a page together.
-/

namespace TwinpassGateway.Foundation

variable {α : Type}

def fitting (room : Nat) : List (List α) → List (List α)
  | [] => []
  | piece :: rest => if piece.length < room then piece :: fitting (room - piece.length) rest else []

def leftOver (room : Nat) : List (List α) → List (List α)
  | [] => []
  | piece :: rest => if piece.length < room then leftOver (room - piece.length) rest else piece :: rest

theorem fitting_append_leftOver (room : Nat) (pieces : List (List α)) :
    fitting room pieces ++ leftOver room pieces = pieces := by
  induction pieces generalizing room with
  | nil => rfl
  | cons piece rest ih =>
    unfold fitting leftOver
    split
    · rw [List.cons_append, ih]
    · rfl

theorem fitting_length (room : Nat) (pieces : List (List α)) :
    fitting room pieces = [] ∨ (fitting room pieces).flatten.length < room := by
  induction pieces generalizing room with
  | nil => exact .inl rfl
  | cons piece rest ih =>
    unfold fitting
    split
    · rename_i short
      right
      rw [List.flatten_cons, List.length_append]
      rcases ih (room - piece.length) with none | fits
      · rw [none]
        exact short
      · omega
    · exact .inl rfl

theorem fitting_zero (pieces : List (List α)) : fitting 0 pieces = [] := by
  cases pieces with
  | nil => rfl
  | cons piece rest => exact if_neg (Nat.not_lt_zero _)

theorem length_of_mem_fitting {room : Nat} {pieces : List (List α)} {piece : List α}
    (member : piece ∈ fitting room pieces) : piece.length < room := by
  rcases fitting_length room pieces with none | fits
  · rw [none] at member
    nomatch member
  · exact Nat.lt_of_le_of_lt (List.sublist_flatten_of_mem member).length_le fits

/-- Nothing fits exactly when there is nothing, or the first piece is as long as the room. -/
theorem fitting_eq_nil {room : Nat} {pieces : List (List α)} (none : fitting room pieces = []) :
    pieces = [] ∨ ∃ piece rest, pieces = piece :: rest ∧ room ≤ piece.length := by
  cases pieces with
  | nil => exact .inl rfl
  | cons piece rest =>
    unfold fitting at none
    split at none
    · nomatch none
    · rename_i long
      exact .inr ⟨piece, rest, rfl, Nat.le_of_not_lt long⟩

theorem leftOver_eq_nil {room : Nat} {pieces : List (List α)} (fits : pieces.flatten.length < room) :
    leftOver room pieces = [] := by
  induction pieces generalizing room with
  | nil => rfl
  | cons piece rest ih =>
    rw [List.flatten_cons, List.length_append] at fits
    unfold leftOver
    rw [if_pos (by omega)]
    exact ih (by omega)

theorem flatten_length_le {pieces : List (List α)} {k : Nat} (short : ∀ piece ∈ pieces, piece.length ≤ k) :
    pieces.flatten.length ≤ pieces.length * k := by
  induction pieces with
  | nil => exact Nat.zero_le _
  | cons piece rest ih =>
    have first := short piece List.mem_cons_self
    have others := ih fun piece' member => short piece' (List.mem_cons_of_mem piece member)
    rw [List.flatten_cons, List.length_append, List.length_cons, Nat.succ_mul]
    omega

end TwinpassGateway.Foundation
