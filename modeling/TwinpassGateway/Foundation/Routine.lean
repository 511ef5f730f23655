import Mathlib.Tactic
import TwinpassGateway.Foundation.Word

/-!
Routines that give orders and may return early, and whose accesses to memory are checked: a bad one ends the run.
-/

namespace TwinpassGateway.Foundation

inductive BadAccess where
  /-- Outside the array. -/
  | outside
  /-- Of a cell that nothing was written to. -/
  | uninitialised
  /-- At or beyond the count that the caller gave. -/
  | beyond
  /-- Without a check, of memory that the caller does not have. -/
  | unmapped
  deriving DecidableEq

inductive Ending where
  | fault (f : BadAccess)
  | returned (r : Int)
  /-- It needs more steps than it was given. -/
  | unfinished
  deriving DecidableEq

/-- A run: what it comes to, and the orders it gave. -/
structure Routine (ω α : Type) where
  result : Except Ending α
  output : List ω := []

namespace Routine

variable {ω α β : Type}

instance : Monad (Routine ω) where
  pure a := { result := .ok a }
  bind m next :=
    match m.result with
    | .ok a => { result := (next a).result, output := m.output ++ (next a).output }
    | .error stop => { result := .error stop, output := m.output }

def stops (f : BadAccess) : Routine ω α := { result := .error (.fault f) }

def returns (r : Int) : Routine ω α := { result := .error (.returned r) }

def order (o : ω) : Routine ω Unit := { result := .ok (), output := [o] }

def waits : Routine ω α := { result := .error .unfinished }

/-- A routine that gives no orders, as a part of one that may give some. -/
def lift (m : Routine Empty α) : Routine ω α := { result := m.result }

/-- The run meets no fault and comes to an end, and a run that goes on satisfies `Q`. -/
def Post (m : Routine ω α) (Q : α → Prop) : Prop :=
  match m.result with
  | .ok a => Q a
  | .error (.returned _) => True
  | .error _ => False

/-- The run meets no fault and comes to an end. -/
def InBounds (m : Routine ω α) : Prop := m.Post fun _ => True

instance : (m : Routine ω α) → Decidable m.InBounds
  | ⟨.ok _, _⟩ => isTrue trivial
  | ⟨.error (.fault _), _⟩ => isFalse id
  | ⟨.error (.returned _), _⟩ => isTrue trivial
  | ⟨.error .unfinished, _⟩ => isFalse id

variable {m : Routine ω α} {next : α → Routine ω β} {Q : α → Prop} {R : β → Prop} {a : α} {f : BadAccess} {r : Int} {o : ω}

@[simp] theorem post_pure : (pure a : Routine ω α).Post Q ↔ Q a := Iff.rfl

@[simp] theorem post_bind : (m >>= next).Post R ↔ m.Post fun a => (next a).Post R := by
  cases m with
  | mk result output =>
    cases result with
    | ok a => exact Iff.rfl
    | error stop => cases stop <;> exact Iff.rfl

@[simp] theorem post_map (g : α → β) : (g <$> m).Post R ↔ m.Post fun a => R (g a) := by
  cases m with
  | mk result output =>
    cases result with
    | ok a => exact Iff.rfl
    | error stop => cases stop <;> exact Iff.rfl

@[simp] theorem post_stops : ¬ (stops f : Routine ω α).Post Q := id

@[simp] theorem post_returns : (returns r : Routine ω α).Post Q := trivial

@[simp] theorem post_order {Q : Unit → Prop} : (order o).Post Q ↔ Q () := Iff.rfl

@[simp] theorem post_lift {m : Routine Empty α} : (lift m : Routine ω α).Post Q ↔ m.Post Q := Iff.rfl

theorem output_lift_bind {m : Routine Empty α} {P : List ω → Prop} (nothing : P []) (later : ∀ a, P (next a).output) :
    P (lift m >>= next).output := by
  obtain ⟨result, output⟩ := m
  cases result with
  | ok a => exact later a
  | error ending => exact nothing

theorem output_bind_pure {b : β} : (m >>= fun _ => (pure b : Routine ω β)).output = m.output := by
  obtain ⟨result, output⟩ := m
  cases result with
  | ok a => exact List.append_nil output
  | error ending => rfl

theorem post_mono {Q' : α → Prop} (post : m.Post Q) (weaker : ∀ a, Q a → Q' a) : m.Post Q' := by
  unfold Post at post ⊢
  split at post
  · exact weaker _ post
  · trivial
  · exact post

theorem post_seq (first : m.Post Q) (rest : ∀ a, Q a → (next a).Post R) : (m >>= next).Post R :=
  post_bind.mpr (post_mono first rest)

theorem post_lift_seq {m : Routine Empty α} (first : m.Post Q) (rest : ∀ a, Q a → (next a).Post R) :
    (lift m >>= next).Post R :=
  post_seq (post_lift.mpr first) rest

end Routine

end TwinpassGateway.Foundation
