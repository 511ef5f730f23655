import TwinpassGateway.Foundation.Run

/-!
A section that contexts enter by decrement-and-test of a counter: the one that finds it 1 goes in, the others count
it up again and turn back. The model of the protocol, and the rule for a machine that follows it.
-/

namespace TwinpassGateway.Foundation

structure DecTest where
  counter : Int := 1
  /-- The contexts in the section. -/
  inside : Nat := 0
  /-- Those that have decremented in vain and not yet incremented. -/
  refused : Nat := 0

namespace DecTest

inductive Move where
  | enter
  | leave
  | retreat

def step (s : DecTest) : Move → DecTest
  | .enter =>
    if s.counter - 1 = 0 then { s with counter := s.counter - 1, inside := s.inside + 1 }
    else { s with counter := s.counter - 1, refused := s.refused + 1 }
  | .leave => if s.inside = 0 then s else { s with counter := s.counter + 1, inside := s.inside - 1 }
  | .retreat => if s.refused = 0 then s else { s with counter := s.counter + 1, refused := s.refused - 1 }

structure Exclusive (s : DecTest) : Prop where
  counted : s.counter = 1 - s.inside - s.refused
  single : s.inside ≤ 1

variable {s : DecTest}

theorem exclusive_start : Exclusive {} := ⟨rfl, Nat.zero_le 1⟩

theorem step_exclusive (m : Move) (exclusive : s.Exclusive) : (s.step m).Exclusive := by
  obtain ⟨counted, single⟩ := exclusive
  cases m with
  | enter =>
    simp only [step]
    split
    · -- the counter was 1, so nobody is in the section
      refine ⟨?_, ?_⟩ <;> dsimp only <;> omega
    · exact ⟨by dsimp only; omega, single⟩
  | leave =>
    simp only [step]
    split
    · exact ⟨counted, single⟩
    · refine ⟨?_, ?_⟩ <;> dsimp only <;> omega
  | retreat =>
    simp only [step]
    split
    · exact ⟨counted, single⟩
    · exact ⟨by dsimp only; omega, single⟩

theorem Exclusive.idle (exclusive : s.Exclusive) (inside : s.inside = 0) (refused : s.refused = 0) : s.counter = 1 := by
  rw [exclusive.counted, inside, refused]
  rfl

/-- A counter of 32 bits answers the same as long as fewer than 2^32 contexts are inside or on their way back. -/
theorem Exclusive.word_test (exclusive : s.Exclusive) (few : s.inside + s.refused < 2 ^ 32) :
    BitVec.ofInt 32 (s.counter - 1) = 0 ↔ s.counter - 1 = 0 := by
  obtain ⟨counted, -⟩ := exclusive
  constructor
  · intro zero
    have wrapped := congrArg BitVec.toInt zero
    rw [BitVec.toInt_ofInt] at wrapped
    have divides := Int.dvd_of_bmod_eq_zero wrapped
    obtain ⟨k, multiple⟩ := divides
    omega
  · intro zero
    rw [zero]
    rfl

/-! ### Machines that follow the protocol -/

variable {σ ε : Type*} {machine : σ → ε → σ} {view : σ → DecTest}

/-- Each step of the machine is one of the protocol's, or does not touch the counter. -/
def Follows (machine : σ → ε → σ) (view : σ → DecTest) : Prop :=
  ∀ s e, view (machine s e) = view s ∨ ∃ m, view (machine s e) = (view s).step m

theorem Follows.exclusive (follows : Follows machine view) {s : σ} (start : (view s).Exclusive) (events : List ε) :
    (view (exec machine s events)).Exclusive := by
  have step (s : σ) (e : ε) (exclusive : (view s).Exclusive) (_ : True) : (view (machine s e)).Exclusive := by
    obtain same | ⟨m, moved⟩ := follows s e
    · rw [same]
      exact exclusive
    · rw [moved]
      exact step_exclusive m exclusive
  exact @exec_invariant σ ε machine (fun s => (view s).Exclusive) (fun _ => True) step s start events fun _ _ => trivial

end DecTest

end TwinpassGateway.Foundation
