import Mathlib.Order.Basic
import Mathlib.Order.Lattice
import TwinpassGateway.Foundation.Run

/-!
A cell that is written with priorities: a write below the recorded priority is dropped, so the last
write among the strongest ones stays.
-/

namespace TwinpassGateway.Foundation

variable {σ ε ρ α : Type*}

@[ext] structure Ranked (ρ α : Type*) where
  rank : ρ
  value : α

section Order

variable [LinearOrder ρ]

namespace Ranked

variable {cell w : Ranked ρ α} {writes : List (Ranked ρ α)}

def put (cell w : Ranked ρ α) : Ranked ρ α := if w.rank < cell.rank then cell else w

theorem put_below (below : w.rank < cell.rank) : cell.put w = cell := if_pos below

theorem put_reaches (enough : cell.rank ≤ w.rank) : cell.put w = w := if_neg (not_lt.mpr enough)

theorem rank_put (cell w : Ranked ρ α) : (cell.put w).rank = max cell.rank w.rank := by
  rcases lt_or_ge w.rank cell.rank with below | enough
  · rw [put_below below, max_eq_left below.le]
  · rw [put_reaches enough, max_eq_right enough]

theorem rank_exec_le {bound : ρ} (start : cell.rank ≤ bound) (bounded : ∀ v ∈ writes, v.rank ≤ bound) :
    (exec put cell writes).rank ≤ bound := by
  induction writes generalizing cell with
  | nil => exact start
  | cons v rest ih =>
    refine ih ?_ fun u member => bounded u (List.mem_cons_of_mem _ member)
    rw [rank_put]
    exact max_le start (bounded v List.mem_cons_self)

theorem exec_below (below : ∀ v ∈ writes, v.rank < cell.rank) : exec put cell writes = cell := by
  induction writes with
  | nil => rfl
  | cons v rest ih =>
    rw [exec_cons, put_below (below v List.mem_cons_self)]
    exact ih fun u member => below u (List.mem_cons_of_mem _ member)

theorem exec_winner {before after : List (Ranked ρ α)} (enough : cell.rank ≤ w.rank)
    (earlier : ∀ v ∈ before, v.rank ≤ w.rank) (later : ∀ v ∈ after, v.rank < w.rank) :
    exec put cell (before ++ w :: after) = w := by
  rw [exec_append, exec_cons, put_reaches (rank_exec_le enough earlier)]
  exact exec_below later

end Ranked

/-- Among the events of a kind, the last one of those with the greatest rank. -/
theorem exists_last_max {P : ε → Prop} (rank : ε → ρ) {events : List ε} (some_one : ∃ e ∈ events, P e) :
    ∃ before e after, events = before ++ e :: after ∧ P e ∧ (∀ u ∈ before, P u → rank u ≤ rank e) ∧
      ∀ u ∈ after, P u → rank u < rank e := by
  induction events with
  | nil =>
    obtain ⟨e, member, _⟩ := some_one
    cases member
  | cons v rest ih =>
    by_cases more : ∃ e ∈ rest, P e
    · obtain ⟨before, e, after, split, kind, earlier, later⟩ := ih more
      by_cases first : P v ∧ rank e < rank v
      · refine ⟨[], v, rest, rfl, first.1, by simp, ?_⟩
        intro u member kind'
        refine lt_of_le_of_lt ?_ first.2
        rw [split, List.mem_append, List.mem_cons] at member
        rcases member with member | rfl | member
        · exact earlier u member kind'
        · exact le_refl _
        · exact (later u member kind').le
      · refine ⟨v :: before, e, after, by rw [split, List.cons_append], kind, ?_, later⟩
        intro u member kind'
        rcases List.mem_cons.mp member with rfl | member
        · exact not_lt.mp fun above => first ⟨kind', above⟩
        · exact earlier u member kind'
    · obtain ⟨e, member, kind⟩ := some_one
      rcases List.mem_cons.mp member with rfl | member
      · exact ⟨[], e, rest, rfl, kind, by simp, fun u inside kind' => absurd ⟨u, inside, kind'⟩ more⟩
      · exact absurd ⟨e, member, kind⟩ more

end Order

/-! ### A machine with such a cell -/

/-- The writes of a run to the cell; what is written may depend on the state. -/
def cellWrites (step : σ → ε → σ) (write : σ → ε → Option (Ranked ρ α)) : σ → List ε → List (Ranked ρ α)
  | _, [] => []
  | s, e :: rest => (write s e).toList ++ cellWrites step write (step s e) rest

variable {step : σ → ε → σ} {write : σ → ε → Option (Ranked ρ α)} {s : σ}

theorem cellWrites_append (xs ys : List ε) :
    cellWrites step write s (xs ++ ys) = cellWrites step write s xs ++ cellWrites step write (exec step s xs) ys := by
  induction xs generalizing s with
  | nil => rfl
  | cons e rest ih => rw [List.cons_append, cellWrites, cellWrites, ih, List.append_assoc, exec_cons]

theorem mem_cellWrites {events : List ε} {v : Ranked ρ α} (member : v ∈ cellWrites step write s events) :
    ∃ e ∈ events, ∃ t, write t e = some v := by
  induction events generalizing s with
  | nil => cases member
  | cons e rest ih =>
    rw [cellWrites, List.mem_append] at member
    rcases member with here | later
    · exact ⟨e, List.mem_cons_self, s, Option.mem_toList.mp here⟩
    · obtain ⟨e', inside, found⟩ := ih later
      exact ⟨e', List.mem_cons_of_mem _ inside, found⟩

/-- If every step does to the cell what its write says, so does the run. -/
theorem view_exec [LinearOrder ρ] {view : σ → Ranked ρ α} {Inv : σ → Prop} {allowed : σ → ε → Prop}
    (tracks : ∀ s e, Inv s → allowed s e →
      Inv (step s e) ∧ view (step s e) = (write s e).elim (view s) (view s).put)
    (start : Inv s) {events : List ε} (guarded : Guarded step allowed s events) :
    view (exec step s events) = exec Ranked.put (view s) (cellWrites step write s events) := by
  induction events generalizing s with
  | nil => rfl
  | cons e rest ih =>
    obtain ⟨preserved, seen⟩ := tracks s e start guarded.1
    rw [exec_cons, ih preserved guarded.2, cellWrites, exec_append, seen]
    cases write s e <;> rfl

end TwinpassGateway.Foundation
