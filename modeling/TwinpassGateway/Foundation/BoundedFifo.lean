import TwinpassGateway.Foundation.Run

/-!
Machines that answer each event, when one of them refines another, and the queue of bounded capacity
as the machine that circular buffers refine.
-/

namespace TwinpassGateway.Foundation

variable {σ τ ε ο : Type*}

def answers (step : σ → ε → σ × ο) : σ → List ε → List ο
  | _, [] => []
  | s, e :: rest => (step s e).2 :: answers step (step s e).1 rest

def last (step : σ → ε → σ × ο) : σ → List ε → σ := exec fun s e => (step s e).1

/-- A simulation step by step is one of whole runs. -/
theorem refines {step : σ → ε → σ × ο} {spec : τ → ε → τ × ο} {R : σ → τ → Prop}
    (simulates : ∀ s t e, R s t → (step s e).2 = (spec t e).2 ∧ R (step s e).1 (spec t e).1) {s : σ} {t : τ}
    (related : R s t) (events : List ε) :
    answers step s events = answers spec t events ∧ R (last step s events) (last spec t events) := by
  induction events generalizing s t with
  | nil => exact ⟨rfl, related⟩
  | cons e rest ih =>
    obtain ⟨same, next⟩ := simulates s t e related
    obtain ⟨later, final⟩ := ih next
    refine ⟨?_, final⟩
    rw [answers, answers, same, later]

namespace BoundedFifo

variable {α : Type*}

inductive Call (α : Type*) where
  | push (x : α)
  | pop

inductive Answer (α : Type*) where
  | taken
  | refused
  | nothing
  | got (x : α)
  deriving DecidableEq

def step (cap : Nat) (q : List α) : Call α → List α × Answer α
  | .push x => if q.length < cap then (q ++ [x], .taken) else (q, .refused)
  | .pop =>
    match q with
    | [] => ([], .nothing)
    | x :: rest => (rest, .got x)

def accepted : List (Call α) → List (Answer α) → List α
  | .push x :: calls, .taken :: rest => x :: accepted calls rest
  | _ :: calls, _ :: rest => accepted calls rest
  | _, _ => []

def delivered : List (Answer α) → List α
  | [] => []
  | .got x :: rest => x :: delivered rest
  | _ :: rest => delivered rest

/-- Elements come out once each and in the order in which they were taken. -/
theorem accepted_delivered (cap : Nat) (q : List α) (calls : List (Call α)) :
    q ++ accepted calls (answers (step cap) q calls) =
      delivered (answers (step cap) q calls) ++ last (step cap) q calls := by
  induction calls generalizing q with
  | nil => exact List.append_nil q
  | cons call rest ih =>
    cases call with
    | push x =>
      by_cases room : q.length < cap
      · have taken : step cap q (.push x) = (q ++ [x], .taken) := if_pos room
        have later := ih (q ++ [x])
        rw [List.append_assoc, List.singleton_append] at later
        rw [answers, last, exec_cons, taken]
        exact later
      · have refused : step cap q (.push x) = (q, .refused) := if_neg room
        rw [answers, last, exec_cons, refused]
        exact ih q
    | pop =>
      cases q with
      | nil => exact ih []
      | cons x q => exact congrArg (x :: ·) (ih q)

end BoundedFifo

end TwinpassGateway.Foundation
