import Mathlib.Data.List.Basic

/-!
Frames with a header in front that the reader takes off only where it finds it.
-/

namespace TwinpassGateway.Foundation

variable {α : Type} [DecidableEq α]

/-- The frame without its header, when it begins with it. -/
def unframed (header frame : List α) : List α := if header <+: frame then frame.drop header.length else frame

theorem unframed_here (header frame : List α) : unframed header (header ++ frame) = frame := by
  unfold unframed
  rw [if_pos (List.prefix_append header frame)]
  exact List.drop_left

theorem unframed_elsewhere {header frame : List α} (absent : ¬ header <+: frame) : unframed header frame = frame :=
  if_neg absent

/-- A reader that expects one header gets the frame behind another one exactly when the headers are the same, or when
there is none and the frame does not look as if there were one. -/
theorem unframed_append_iff (expected header frame : List α) :
    unframed expected (header ++ frame) = frame ↔ header = expected ∨ header = [] ∧ ¬ expected <+: frame := by
  by_cases found : expected <+: header ++ frame
  · unfold unframed
    rw [if_pos found]
    constructor
    · intro same
      have lengths : (header ++ frame).length - expected.length = frame.length := by
        rw [← List.length_drop, same]
      have short : expected.length ≤ (header ++ frame).length := found.length_le
      rw [List.length_append] at lengths short
      have equal : expected.length = header.length := by omega
      left
      exact ((List.prefix_of_prefix_length_le found (List.prefix_append header frame) (Nat.le_of_eq equal)).eq_of_length
        equal).symm
    · rintro (rfl | ⟨rfl, absent⟩)
      · exact List.drop_left
      · exact absurd found absent
  · rw [unframed_elsewhere found]
    constructor
    · intro same
      have none : header = [] := List.append_left_eq_self.mp same
      right
      apply And.intro none
      intro looks
      apply found
      rw [none]
      exact looks
    · rintro (rfl | ⟨rfl, -⟩)
      · exact absurd (List.prefix_append header frame) found
      · rfl

end TwinpassGateway.Foundation
