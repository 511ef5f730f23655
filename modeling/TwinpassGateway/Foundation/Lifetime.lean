import Mathlib.Data.List.Count
import Mathlib.Tactic

/-!
Lifetimes of buffers over a record of memory operations: what it means that every buffer is released exactly
once and used only while it is held, and a replay of the record that decides it.
-/

namespace TwinpassGateway.Foundation

/-- The null pointer is `none`. -/
inductive MemOp (β : Type*) where
  | alloc (b : β)
  | touch (p : Option β)
  | release (p : Option β)
  deriving DecidableEq

namespace MemOp

variable {β γ : Type*} [DecidableEq β] [DecidableEq γ]

def Live (before : List (MemOp β)) (b : β) : Prop := before.count (.release (some b)) < before.count (.alloc b)

/-- Releasing the null pointer does nothing. -/
def Sound (before : List (MemOp β)) : MemOp β → Prop
  | .alloc b => ¬ Live before b
  | .touch p => ∃ b ∈ p, Live before b
  | .release p => ∀ b ∈ p, Live before b

structure Disciplined (ops : List (MemOp β)) : Prop where
  sound : ∀ before op after, ops = before ++ op :: after → op.Sound before
  released : ∀ b, ops.count (.release (some b)) = ops.count (.alloc b)

/-! ### Replay -/

def run (live : List β) : MemOp β → Option (List β)
  | .alloc b => if b ∈ live then none else some (b :: live)
  | .touch none => none
  | .touch (some b) => if b ∈ live then some live else none
  | .release none => some live
  | .release (some b) => if b ∈ live then some (live.erase b) else none

def replay (live : List β) : List (MemOp β) → Option (List β)
  | [] => some live
  | op :: ops => (op.run live).bind fun live => replay live ops

@[simp] theorem replay_nil (live : List β) : replay live [] = some live := rfl

@[simp] theorem replay_cons (live : List β) (op : MemOp β) (ops : List (MemOp β)) :
    replay live (op :: ops) = (op.run live).bind fun live => replay live ops := rfl

theorem replay_append (live : List β) (first second : List (MemOp β)) :
    replay live (first ++ second) = (replay live first).bind fun live => replay live second := by
  induction first generalizing live with
  | nil => rfl
  | cons op ops ih =>
    cases h : op.run live with
    | none => simp [h]
    | some next => simpa [h] using ih next

/-- `live` lists the buffers that are held after `before`. -/
structure Ledger (before : List (MemOp β)) (live : List β) : Prop where
  once : live.Nodup
  counts : ∀ b, before.count (.alloc b) = before.count (.release (some b)) + live.count b

theorem Ledger.start : Ledger ([] : List (MemOp β)) [] := ⟨List.nodup_nil, fun _ => rfl⟩

variable {before ops : List (MemOp β)} {live final : List β}

theorem Ledger.live_iff (ledger : Ledger before live) (b : β) : Live before b ↔ b ∈ live := by
  have counted := ledger.counts b
  have member := List.count_pos_iff (a := b) (l := live)
  unfold Live
  rw [← member]
  omega

theorem Ledger.run_isSome (ledger : Ledger before live) (op : MemOp β) : (op.run live).isSome ↔ op.Sound before := by
  cases op with
  | alloc b => by_cases held : b ∈ live <;> simp [run, Sound, ledger.live_iff, held]
  | touch p =>
    cases p with
    | none => simp [run, Sound]
    | some b => by_cases held : b ∈ live <;> simp [run, Sound, ledger.live_iff, held]
  | release p =>
    cases p with
    | none => simp [run, Sound]
    | some b => by_cases held : b ∈ live <;> simp [run, Sound, ledger.live_iff, held]

theorem Ledger.step (ledger : Ledger before live) {op : MemOp β} (ran : op.run live = some final) :
    Ledger (before ++ [op]) final := by
  cases op with
  | alloc b =>
    simp only [run, Option.ite_none_left_eq_some, Option.some.injEq] at ran
    obtain ⟨fresh, rfl⟩ := ran
    refine ⟨List.nodup_cons.mpr ⟨fresh, ledger.once⟩, fun c => ?_⟩
    have counted := ledger.counts c
    by_cases same : b = c
    · subst same
      simp [counted, Nat.add_assoc]
    · simp [counted, same]
  | touch p =>
    cases p with
    | none => exact absurd ran nofun
    | some b =>
      simp only [run, Option.ite_none_right_eq_some, Option.some.injEq] at ran
      obtain ⟨_, rfl⟩ := ran
      exact ⟨ledger.once, fun c => by simpa using ledger.counts c⟩
  | release p =>
    cases p with
    | none =>
      obtain rfl := Option.some.inj ran
      exact ⟨ledger.once, fun c => by simpa using ledger.counts c⟩
    | some b =>
      simp only [run, Option.ite_none_right_eq_some, Option.some.injEq] at ran
      obtain ⟨held, rfl⟩ := ran
      refine ⟨ledger.once.erase b, fun c => ?_⟩
      have counted := ledger.counts c
      by_cases same : b = c
      · subst same
        have := List.count_pos_iff.mpr held
        simp [counted, List.count_erase_self]
        omega
      · simp [counted, same, List.count_erase_of_ne (Ne.symm same)]

theorem Ledger.replay_isSome (ledger : Ledger before live) (ops : List (MemOp β)) :
    (replay live ops).isSome ↔ ∀ first op rest, ops = first ++ op :: rest → op.Sound (before ++ first) := by
  induction ops generalizing before live with
  | nil => simp
  | cons op ops ih =>
    have here := ledger.run_isSome op
    constructor
    · intro replayed first op' rest same
      cases h : op.run live with
      | none => simp [h] at replayed
      | some next =>
        rw [replay_cons, h, Option.bind_some, ih (ledger.step h)] at replayed
        cases first with
        | nil =>
          obtain ⟨rfl, rfl⟩ := List.cons.inj same
          simpa [h] using here
        | cons head first =>
          obtain ⟨rfl, tails⟩ := List.cons.inj same
          simpa using replayed first op' rest tails
    · intro sound
      have first := here.mpr (by simpa using sound [] op ops rfl)
      obtain ⟨next, h⟩ := Option.isSome_iff_exists.mp first
      rw [replay_cons, h, Option.bind_some, ih (ledger.step h)]
      intro first op' rest same
      simpa using sound (op :: first) op' rest (by rw [same]; rfl)

theorem Ledger.replay (ledger : Ledger before live) (replayed : replay live ops = some final) :
    Ledger (before ++ ops) final := by
  induction ops generalizing before live with
  | nil =>
    obtain rfl := Option.some.inj replayed
    simpa using ledger
  | cons op ops ih =>
    obtain ⟨next, ran, rest⟩ := Option.bind_eq_some_iff.mp replayed
    simpa using ih (ledger.step ran) rest

/-- A record is disciplined exactly when it can be replayed and nothing is held at its end. -/
theorem disciplined_iff_replay (ops : List (MemOp β)) : Disciplined ops ↔ replay [] ops = some [] := by
  have sound := Ledger.start.replay_isSome ops
  constructor
  · intro disciplined
    obtain ⟨final, replayed⟩ := Option.isSome_iff_exists.mp (sound.mpr disciplined.sound)
    have ledger := Ledger.start.replay replayed
    have nothing : final = [] := by
      apply List.eq_nil_iff_forall_not_mem.mpr
      intro b held
      have counted := ledger.counts b
      have := List.count_pos_iff.mpr held
      have := disciplined.released b
      simp only [List.nil_append] at counted
      omega
    rw [replayed, nothing]
  · intro replayed
    have ledger := Ledger.start.replay replayed
    refine ⟨fun first op rest => ?_, fun b => ?_⟩
    · exact sound.mp (by rw [replayed]; rfl) first op rest
    · simpa using (ledger.counts b).symm

instance (ops : List (MemOp β)) : Decidable (Disciplined ops) :=
  decidable_of_iff (MemOp.replay [] ops = some []) (disciplined_iff_replay ops).symm

/-! ### A record inside another -/

def map (f : β → γ) : MemOp β → MemOp γ
  | .alloc b => .alloc (f b)
  | .touch p => .touch (p.map f)
  | .release p => .release (p.map f)

section
variable {f : β → γ} {others : List γ}

end

end MemOp

end TwinpassGateway.Foundation
