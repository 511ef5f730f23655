import TwinpassGateway.Foundation.Run

/-!
Potentials: what a run costs is paid for by a potential that every step lowers by its own cost, and a run that lowers its
potential until it is done comes to its end.
-/

namespace TwinpassGateway.Foundation

variable {σ ε : Type*}

def totalCost (step : σ → ε → σ) (cost : σ → ε → Nat) : σ → List ε → Nat
  | _, [] => 0
  | s, e :: rest => cost s e + totalCost step cost (step s e) rest

theorem totalCost_append (step : σ → ε → σ) (cost : σ → ε → Nat) (s : σ) (xs ys : List ε) :
    totalCost step cost s (xs ++ ys) = totalCost step cost s xs + totalCost step cost (exec step s xs) ys := by
  induction xs generalizing s with
  | nil => exact (Nat.zero_add _).symm
  | cons e rest ih => rw [List.cons_append, totalCost, totalCost, ih, exec_cons, Nat.add_assoc]

theorem totalCost_le {step : σ → ε → σ} {cost : σ → ε → Nat} {allowed : σ → ε → Prop} {Inv : σ → Prop}
    {potential : σ → Nat} (preserved : ∀ s e, Inv s → allowed s e → Inv (step s e))
    (pays : ∀ s e, Inv s → allowed s e → cost s e + potential (step s e) ≤ potential s) {s : σ} (start : Inv s)
    {events : List ε} (guarded : Guarded step allowed s events) : totalCost step cost s events ≤ potential s := by
  induction events generalizing s with
  | nil => exact Nat.zero_le _
  | cons e rest ih =>
    have later := ih (preserved s e start guarded.1) guarded.2
    have here := pays s e start guarded.1
    unfold totalCost
    omega

/-- A run in which every step lowers the potential is no longer than what it takes from it. -/
theorem length_add_potential_le {step : σ → ε → σ} {allowed : σ → ε → Prop} {Inv : σ → Prop} {potential : σ → Nat}
    (preserved : ∀ s e, Inv s → allowed s e → Inv (step s e))
    (lowers : ∀ s e, Inv s → allowed s e → potential (step s e) < potential s) {s : σ} (start : Inv s) {events : List ε}
    (guarded : Guarded step allowed s events) : events.length + potential (exec step s events) ≤ potential s := by
  induction events generalizing s with
  | nil => exact Nat.le_of_eq (Nat.zero_add _)
  | cons e rest ih =>
    have later := ih (preserved s e start guarded.1) guarded.2
    have here := lowers s e start guarded.1
    rw [exec_cons, List.length_cons]
    omega

/-- A run on a stream of inputs that lowers its potential as long as it is not done is done at some time. -/
theorem exec_eventually {step : σ → ε → σ} {allowed : ε → Prop} {Inv Done : σ → Prop} {potential : σ → Nat}
    (preserved : ∀ s e, Inv s → allowed e → Inv (step s e))
    (lowers : ∀ s e, Inv s → allowed e → ¬ Done s → potential (step s e) < potential s) {s : σ} (start : Inv s)
    {input : Nat → ε} (all : ∀ n, allowed (input n)) : ∃ n, Done (exec step s ((List.range n).map input)) := by
  induction left : potential s using Nat.strongRecOn generalizing s input with
  | ind left' ih =>
    by_cases done : Done s
    · exact ⟨0, done⟩
    · have lower := lowers s (input 0) start (all 0) done
      obtain ⟨n, ends⟩ := ih _ (left ▸ lower) (preserved s (input 0) start (all 0)) (fun n => all (n + 1)) rfl
      refine ⟨n + 1, ?_⟩
      rw [List.range_succ_eq_map, List.map_cons, List.map_map]
      exact ends

end TwinpassGateway.Foundation
