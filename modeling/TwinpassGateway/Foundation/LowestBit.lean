import Mathlib.Tactic

/-!
Single bits of words: the word with one bit, the least significant set bit (`BitVec.ctz` under shifts), and sets of
bits read as lists.
-/

namespace TwinpassGateway.Foundation

variable {w : Nat} {x : BitVec w}

theorem one_shiftLeft_bit (n : Nat) {i : Nat} (below : i < w) : (1#w <<< n).getLsbD i = decide (i = n) := by
  rw [BitVec.getLsbD_shiftLeft]
  by_cases same : i = n
  · subst same
    simp [below, show 0 < w by omega]
  · by_cases low : i < n
    · simp [low, same]
    · have above : i - n ≠ 0 := by omega
      simp [low, same, above]

theorem and_one_shiftLeft_eq_zero {n : Nat} (below : n < w) : x &&& (1#w <<< n) = 0#w ↔ x.getLsbD n = false := by
  constructor
  · intro clear
    have bit := congrArg (fun y : BitVec w => y.getLsbD n) clear
    simpa [BitVec.getLsbD_and, one_shiftLeft_bit n below] using bit
  · intro clear
    apply BitVec.eq_of_getLsbD_eq
    intro i inside
    rw [BitVec.getLsbD_and, one_shiftLeft_bit n inside]
    by_cases same : i = n <;> simp [same, clear]

theorem ctz_toNat_lt (nonzero : x ≠ 0#w) : x.ctz.toNat < w := by
  have below := BitVec.ctz_lt_iff_ne_zero.mpr nonzero
  rw [BitVec.lt_def, BitVec.natCast_eq_ofNat, BitVec.toNat_ofNat] at below
  exact lt_of_lt_of_le below (Nat.mod_le _ _)

/-- A set bit with none below it is the one that `ctz` finds. -/
theorem ctz_toNat_eq {p : Nat} (set : x.getLsbD p = true) (least : ∀ i < p, x.getLsbD i = false) : x.ctz.toNat = p := by
  have nonzero : x ≠ 0#w := by
    rintro rfl
    simp at set
  rcases Nat.lt_trichotomy x.ctz.toNat p with lower | same | higher
  · have clear := least _ lower
    rw [BitVec.getLsbD_true_ctz_of_ne_zero nonzero] at clear
    cases clear
  · exact same
  · have clear := BitVec.getLsbD_false_of_lt_ctz higher
    rw [set] at clear
    cases clear

theorem shiftLeft_eq_zero_iff (nonzero : x ≠ 0#w) (k : Nat) : x <<< k = 0#w ↔ w ≤ x.ctz.toNat + k := by
  constructor
  · intro lost
    by_contra room
    have kept := congrArg (·.getLsbD (x.ctz.toNat + k)) lost
    simp only [BitVec.getLsbD_shiftLeft, Nat.add_sub_cancel, BitVec.getLsbD_true_ctz_of_ne_zero nonzero] at kept
    simp [show x.ctz.toNat + k < w by omega] at kept
  · intro full
    apply BitVec.eq_of_getLsbD_eq
    intro i below
    rw [BitVec.getLsbD_shiftLeft]
    by_cases low : i < k
    · simp [low]
    · simp [BitVec.getLsbD_false_of_lt_ctz (show i - k < x.ctz.toNat by omega)]

theorem ctz_shiftLeft (nonzero : x ≠ 0#w) {k : Nat} (room : x.ctz.toNat + k < w) :
    (x <<< k).ctz.toNat = x.ctz.toNat + k := by
  apply ctz_toNat_eq
  · simp [room, BitVec.getLsbD_true_ctz_of_ne_zero nonzero]
  · intro i below
    rw [BitVec.getLsbD_shiftLeft]
    by_cases low : i < k
    · simp [low]
    · simp [BitVec.getLsbD_false_of_lt_ctz (show i - k < x.ctz.toNat by omega)]

/-- A step of a search by halves: shift left by `k` unless that loses the word. -/
theorem halving (nonzero : x ≠ 0#w) (k : Nat) {s : Nat} (step : s = if x <<< k = 0#w then 0 else k) :
    x <<< s ≠ 0#w ∧ (x <<< s).ctz.toNat = x.ctz.toNat + s ∧
      s = if w ≤ x.ctz.toNat + k then 0 else k := by
  have below := ctz_toNat_lt nonzero
  simp only [shiftLeft_eq_zero_iff nonzero] at step
  have room : x.ctz.toNat + s < w := by
    rw [step]
    split <;> omega
  refine ⟨?_, ctz_shiftLeft nonzero room, step⟩
  intro lost
  have full := (shiftLeft_eq_zero_iff nonzero s).mp lost
  omega

/-! ### The set bits in order -/

def setBits (x : BitVec w) : List (Fin w) := (List.finRange w).filter fun i => x.getLsbD i

theorem setBits_eq_nil {x : BitVec w} : setBits x = [] ↔ x = 0#w := by
  constructor
  · intro none
    apply BitVec.eq_of_getLsbD_eq
    intro i below
    have clear := List.filter_eq_nil_iff.mp none ⟨i, below⟩ (List.mem_finRange _)
    simpa using clear
  · rintro rfl
    exact List.filter_eq_nil_iff.mpr fun i _ => by simp

/-- Without its first element that passes, a sorted list keeps the others that do. -/
theorem filter_first {α : Type*} [LinearOrder α] {l : List α} (sorted : l.Pairwise (· < ·)) {p q : α → Bool} {k : α}
    (member : k ∈ l) (passes : p k = true) (least : ∀ i < k, p i = false) (rest : ∀ i, q i = (p i && decide (i ≠ k))) :
    l.filter p = k :: l.filter q := by
  induction l with
  | nil => cases member
  | cons a l ih =>
    obtain ⟨above, sorted⟩ := List.pairwise_cons.mp sorted
    have dropped : q k = false := by simp [rest]
    rcases List.mem_cons.mp member with rfl | later
    · rw [List.filter_cons_of_pos passes, List.filter_cons_of_neg (by simp [dropped])]
      congr 1
      apply List.filter_congr
      intro i member
      simp [rest, (above i member).ne']
    · have failed := least a (above k later)
      rw [List.filter_cons_of_neg (by simp [failed]), List.filter_cons_of_neg (by simp [rest, failed]), ih sorted later]

theorem setBits_cons {x y : BitVec w} {k : Fin w} (set : x.getLsbD k = true) (least : ∀ i < k, x.getLsbD i = false)
    (rest : ∀ i : Fin w, y.getLsbD i = (x.getLsbD i && decide (i ≠ k))) : setBits x = k :: setBits y :=
  filter_first (List.pairwise_lt_finRange w) (List.mem_finRange k) set least rest

end TwinpassGateway.Foundation
