import Mathlib.Data.List.Basic
import Mathlib.Tactic

/-!
Runs of a state machine, and the induction that turns a step lemma into a run lemma.
-/

namespace TwinpassGateway.Foundation

variable {σ ε : Type*}

/-- The state a deterministic machine is in after a list of events. -/
def exec (step : σ → ε → σ) (s : σ) (events : List ε) : σ := events.foldl step s

@[simp] theorem exec_nil (step : σ → ε → σ) (s : σ) : exec step s [] = s := rfl

@[simp] theorem exec_cons (step : σ → ε → σ) (s : σ) (e : ε) (rest : List ε) :
    exec step s (e :: rest) = exec step (step s e) rest := rfl

theorem exec_append (step : σ → ε → σ) (s : σ) (xs ys : List ε) :
    exec step s (xs ++ ys) = exec step (exec step s xs) ys := List.foldl_append

theorem exec_invariant {step : σ → ε → σ} {Inv : σ → Prop} {Allowed : ε → Prop}
    (preserved : ∀ s e, Inv s → Allowed e → Inv (step s e)) {s : σ} (start : Inv s) {events : List ε}
    (allowed : ∀ e ∈ events, Allowed e) : Inv (exec step s events) := by
  induction events generalizing s with
  | nil => exact start
  | cons e rest ih =>
    exact ih (preserved s e start (allowed e List.mem_cons_self))
      fun e' member => allowed e' (List.mem_cons_of_mem _ member)

/-- Every event of the run is allowed in the state it meets. -/
def Guarded (step : σ → ε → σ) (allowed : σ → ε → Prop) : σ → List ε → Prop
  | _, [] => True
  | s, e :: rest => allowed s e ∧ Guarded step allowed (step s e) rest

instance decidableGuarded {step : σ → ε → σ} {allowed : σ → ε → Prop} [∀ s e, Decidable (allowed s e)] :
    ∀ s events, Decidable (Guarded step allowed s events)
  | _, [] => instDecidableTrue
  | s, e :: rest => @instDecidableAnd _ _ inferInstance (decidableGuarded (step s e) rest)

theorem guarded_append {step : σ → ε → σ} {allowed : σ → ε → Prop} {s : σ} {xs ys : List ε} :
    Guarded step allowed s (xs ++ ys) ↔ Guarded step allowed s xs ∧ Guarded step allowed (exec step s xs) ys := by
  induction xs generalizing s with
  | nil => exact ⟨fun h => ⟨trivial, h⟩, And.right⟩
  | cons e rest ih => rw [List.cons_append, Guarded, Guarded, ih, exec_cons, and_assoc]

theorem guarded_invariant {step : σ → ε → σ} {allowed : σ → ε → Prop} {Inv : σ → Prop}
    (preserved : ∀ s e, Inv s → allowed s e → Inv (step s e)) {s : σ} (start : Inv s) {events : List ε}
    (guarded : Guarded step allowed s events) : Inv (exec step s events) := by
  induction events generalizing s with
  | nil => exact start
  | cons e rest ih => exact ih (preserved s e start guarded.1) guarded.2

/-- A relation between two machines that take the same events, allowed by the second one's state. -/
theorem guarded_simulation {τ : Type*} {step : σ → ε → σ} {step' : τ → ε → τ} {allowed : τ → ε → Prop}
    {Rel : σ → τ → Prop} (preserved : ∀ s t e, Rel s t → allowed t e → Rel (step s e) (step' t e)) {s : σ} {t : τ}
    (start : Rel s t) {events : List ε} (guarded : Guarded step' allowed t events) :
    Rel (exec step s events) (exec step' t events) := by
  induction events generalizing s t with
  | nil => exact start
  | cons e rest ih => exact ih (preserved s t e start guarded.1) guarded.2

/-- A property of the last state that no step can bring back held after every step. -/
theorem guarded_of_last {step : σ → ε → σ} {P : σ → Prop} (sticky : ∀ s e, P (step s e) → P s) {s : σ} {events : List ε}
    (last : P (exec step s events)) : P s ∧ Guarded step (fun s e => P (step s e)) s events := by
  induction events generalizing s with
  | nil => exact ⟨last, trivial⟩
  | cons e rest ih =>
    obtain ⟨here, later⟩ := ih last
    exact ⟨sticky s e here, here, later⟩

theorem guarded_iff {step : σ → ε → σ} {allowed : σ → ε → Prop} {s : σ} {events : List ε} :
    Guarded step allowed s events ↔
      ∀ before e after, events = before ++ e :: after → allowed (exec step s before) e := by
  constructor
  · rintro guarded before e after rfl
    exact (guarded_append.mp guarded).2.1
  · intro each
    induction events generalizing s with
    | nil => trivial
    | cons e rest ih =>
      refine ⟨each [] e rest rfl, ih fun before e' after same => ?_⟩
      exact each (e :: before) e' after (by rw [same]; rfl)

/-- Where a forbidden event spoils the state at once, the runs without one are those whose states are all good. -/
theorem always_iff_guarded {step : σ → ε → σ} {allowed : σ → ε → Prop} {Inv Good : σ → Prop}
    (preserved : ∀ s e, Inv s → allowed s e → Inv (step s e)) (good : ∀ s, Inv s → Good s)
    (spoiled : ∀ s e, Inv s → ¬ allowed s e → ¬ Good (step s e)) {s : σ} (start : Inv s) {events : List ε} :
    (∀ before after, events = before ++ after → Good (exec step s before)) ↔ Guarded step allowed s events := by
  constructor
  · intro always
    induction events generalizing s with
    | nil => trivial
    | cons e rest ih =>
      have here : allowed s e := by
        by_contra forbidden
        exact spoiled s e start forbidden (always [e] rest rfl)
      refine ⟨here, ih (preserved s e start here) fun before after same => ?_⟩
      exact always (e :: before) after (by rw [same]; rfl)
  · rintro guarded before after rfl
    exact good _ (guarded_invariant preserved start (guarded_append.mp guarded).1)

theorem guarded_congr {step : σ → ε → σ} {allowed allowed' : σ → ε → Prop} {Inv : σ → Prop}
    (agree : ∀ s e, Inv s → (allowed s e ↔ allowed' s e)) (preserved : ∀ s e, Inv s → allowed s e → Inv (step s e))
    {s : σ} (start : Inv s) {events : List ε} : Guarded step allowed s events ↔ Guarded step allowed' s events := by
  induction events generalizing s with
  | nil => exact Iff.rfl
  | cons e rest ih =>
    refine (and_congr_right fun here => ih (preserved s e start here)).trans ?_
    exact and_congr_left' (agree s e start)

/-- The same for a machine that runs on its own. -/
theorem always_iterate_iff {step : σ → σ} {allowed Inv Good : σ → Prop}
    (preserved : ∀ s, Inv s → allowed s → Inv (step s)) (good : ∀ s, Inv s → Good s)
    (spoiled : ∀ s, Inv s → ¬ allowed s → ¬ Good (step s)) {s : σ} (start : Inv s) :
    (∀ n, Good (step^[n] s)) ↔ ∀ n, allowed (step^[n] s) := by
  constructor
  · intro always
    have here (n : Nat) (inv : Inv (step^[n] s)) : allowed (step^[n] s) := by
      by_contra forbidden
      have next := always (n + 1)
      rw [Function.iterate_succ_apply'] at next
      exact spoiled _ inv forbidden next
    have invariant (n : Nat) : Inv (step^[n] s) := by
      induction n with
      | zero => exact start
      | succ n ih =>
        rw [Function.iterate_succ_apply']
        exact preserved _ ih (here n ih)
    exact fun n => here n (invariant n)
  · intro each n
    have invariant : Inv (step^[n] s) := by
      induction n with
      | zero => exact start
      | succ n ih =>
        rw [Function.iterate_succ_apply']
        exact preserved _ ih (each n)
    exact good _ invariant

/-! ### Where a machine that runs on its own comes to -/

def Arrives (step : σ → σ) (s t : σ) : Prop := ∃ n, step^[n] s = t

theorem Arrives.here (step : σ → σ) (s : σ) : Arrives step s s := ⟨0, rfl⟩

theorem Arrives.after {step : σ → σ} {s s' t : σ} (next : step s = s') (rest : Arrives step s' t) : Arrives step s t := by
  obtain ⟨n, arrived⟩ := rest
  refine ⟨n + 1, ?_⟩
  rw [Function.iterate_succ_apply, next, arrived]

/-- There is one state at which a machine stays. -/
theorem Arrives.unique {step : σ → σ} {s t u : σ} (arrived : Arrives step s t) (arrived' : Arrives step s u)
    (stays : step t = t) (stays' : step u = u) : t = u := by
  obtain ⟨n, rfl⟩ := arrived
  obtain ⟨m, rfl⟩ := arrived'
  rcases Nat.le_total n m with le | le
  · obtain ⟨k, rfl⟩ := Nat.exists_eq_add_of_le le
    rw [Nat.add_comm, Function.iterate_add_apply, Function.iterate_fixed stays]
  · obtain ⟨k, rfl⟩ := Nat.exists_eq_add_of_le le
    rw [Nat.add_comm, Function.iterate_add_apply, Function.iterate_fixed stays']

end TwinpassGateway.Foundation
