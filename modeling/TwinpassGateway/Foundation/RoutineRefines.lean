import TwinpassGateway.Foundation.LocalMemory

/-!
Two runs of one routine, of which the second knows more: its arrays hold more characters from the start, and it is given
more steps. Where the first meets no fault and comes to an end, the second does the same.
-/

namespace TwinpassGateway.Foundation

namespace Routine

variable {ω α β γ δ : Type}

/-- Where the first run ends well, so does the second, with the same orders and a related result. -/
def Refines (R : α → β → Prop) (m : Routine ω α) (m' : Routine ω β) : Prop :=
  match m.result with
  | .ok a => ∃ b, m'.result = .ok b ∧ R a b ∧ m'.output = m.output
  | .error (.returned r) => m'.result = .error (.returned r) ∧ m'.output = m.output
  | .error _ => True

variable {R : α → β → Prop} {S : γ → δ → Prop} {m : Routine ω α} {m' : Routine ω β} {next : α → Routine ω γ}
  {next' : β → Routine ω δ} {a : α} {b : β}

theorem refines_pure (related : R a b) : Refines R (pure a : Routine ω α) (pure b) := ⟨b, rfl, related, rfl⟩

theorem refines_stops {f : BadAccess} : Refines R (stops f) m' := trivial

theorem refines_waits : Refines R waits m' := trivial

theorem refines_refl (m : Routine ω α) : Refines Eq m m := by
  unfold Refines
  split
  · exact ⟨_, ‹_›, rfl, rfl⟩
  · exact ⟨‹_›, rfl⟩
  · trivial

theorem refines_order (o : ω) : Refines Eq (order o) (order o) := ⟨(), rfl, rfl, rfl⟩

theorem refines_lift {m : Routine Empty α} {m' : Routine Empty β} (refines : Refines R m m') :
    Refines R (lift m : Routine ω α) (lift m') := by
  unfold Refines lift at *
  split at refines
  · rename_i a same
    obtain ⟨b, result, related, -⟩ := refines
    simp only [same]
    exact ⟨b, result, related, trivial⟩
  · rename_i r same
    simp only [same]
    exact ⟨refines.1, trivial⟩
  · rename_i e other same
    simp only [same]

theorem refines_bind (first : Refines R m m') (rest : ∀ a b, R a b → Refines S (next a) (next' b)) :
    Refines S (m >>= next) (m' >>= next') := by
  obtain ⟨result, output⟩ := m
  obtain ⟨result', output'⟩ := m'
  cases result with
  | ok a =>
    obtain ⟨b, same, related, orders⟩ := first
    dsimp only at same orders
    subst same orders
    have later := rest a b related
    show Refines S { result := (next a).result, output := _ } { result := (next' b).result, output := _ }
    unfold Refines at later ⊢
    dsimp only at later ⊢
    split at later
    · obtain ⟨d, same, related', orders⟩ := later
      exact ⟨d, same, related', by rw [orders]⟩
    · exact ⟨later.1, by rw [later.2]⟩
    · trivial
  | error ending =>
    cases ending with
    | returned r =>
      obtain ⟨same, orders⟩ := first
      dsimp only at same orders
      subst same orders
      exact ⟨rfl, rfl⟩
    | fault f => trivial
    | unfinished => trivial

/-- The two runs have the same first result. -/
theorem refines_bind_eq {m m' : Routine ω α} {next' : α → Routine ω δ} (first : Refines Eq m m')
    (rest : ∀ a, Refines S (next a) (next' a)) : Refines S (m >>= next) (m' >>= next') := by
  refine refines_bind first ?_
  rintro a _ rfl
  exact rest a

theorem eq_of_refines {m m' : Routine ω α} (refines : Refines Eq m m') (inside : m.InBounds) : m' = m := by
  obtain ⟨result, output⟩ := m
  obtain ⟨result', output'⟩ := m'
  cases result with
  | ok a =>
    obtain ⟨b, same, rfl, orders⟩ := refines
    dsimp only at same orders
    rw [same, orders]
  | error ending =>
    cases ending with
    | returned r =>
      obtain ⟨same, orders⟩ := refines
      dsimp only at same orders
      rw [same, orders]
    | fault f => exact inside.elim
    | unfinished => exact inside.elim

end Routine

namespace LocalChars

variable {ω : Type} {size : Nat}

/-- The second array holds what the first does, and may hold more. -/
def Below (a b : LocalChars size) : Prop := ∀ k c, a.cells k = some c → b.cells k = some c

variable {a b : LocalChars size} {p : Int} {c : U8}

theorem below_empty (b : LocalChars size) : Below {} b := fun _ _ none => nomatch none

theorem refines_load (below : Below a b) : Routine.Refines Eq (a.load p : Routine ω U8) (b.load p) := by
  unfold load
  split
  · cases here : a.cells p.toNat with
    | none => exact Routine.refines_stops
    | some c =>
      rw [below _ c here]
      exact Routine.refines_pure rfl
  · exact Routine.refines_stops

theorem refines_store (below : Below a b) :
    Routine.Refines Below (a.store p c : Routine ω (LocalChars size)) (b.store p c) := by
  unfold store
  split
  · refine Routine.refines_pure fun k d => ?_
    dsimp only
    by_cases here : k = p.toNat
    · rw [here, Function.update_self, Function.update_self]
      exact id
    · rw [Function.update_of_ne here, Function.update_of_ne here]
      exact below k d
  · exact Routine.refines_stops

theorem refines_fill {q : Nat} {bytes : List U8} (below : Below a b) :
    Routine.Refines Below (a.fill q bytes : Routine ω (LocalChars size)) (b.fill q bytes) := by
  induction bytes generalizing a b q with
  | nil => exact Routine.refines_pure below
  | cons c rest ih => exact Routine.refines_bind (refines_store below) fun a b below => ih below

end LocalChars

end TwinpassGateway.Foundation
