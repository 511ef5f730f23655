import Mathlib.Data.List.Pairwise
import Mathlib.Tactic

/-!
A byte memory with the areas that an allocator has handed out. A write must stay inside one area;
reads go anywhere.
-/

namespace TwinpassGateway.Foundation

variable {w : Nat} {β : Type*}

structure Area (w : Nat) where
  start : BitVec w
  size : Nat
  deriving DecidableEq

namespace Area

def stop (a : Area w) : Nat := a.start.toNat + a.size

def Spans (a : Area w) (lo hi : Nat) : Prop := a.start.toNat ≤ lo ∧ hi ≤ a.stop

instance (a : Area w) (lo hi : Nat) : Decidable (a.Spans lo hi) := inferInstanceAs (Decidable (_ ∧ _))

/-- Neither area reaches the start of the other, so that they do not share an end point. -/
def Apart (a b : Area w) : Prop := a.stop < b.start.toNat ∨ b.stop < a.start.toNat

instance (a b : Area w) : Decidable (a.Apart b) := inferInstanceAs (Decidable (_ ∨ _))

instance : Std.Symm (Area.Apart (w := w)) := ⟨fun _ _ => Or.symm⟩

theorem Spans.mono {a : Area w} {lo hi lo' hi' : Nat} (spans : a.Spans lo hi) (low : lo ≤ lo') (high : hi' ≤ hi) :
    a.Spans lo' hi' :=
  ⟨spans.1.trans low, high.trans spans.2⟩

end Area

/-- A memory of bytes at addresses of `w` bits. An area is shorter than half the address space. -/
structure AreaMem (w : Nat) (β : Type*) where
  byte : BitVec w → β
  areas : List (Area w)
  short : ∀ a ∈ areas, a.size < 2 ^ (w - 1)
  bounded : ∀ a ∈ areas, a.stop < 2 ^ w
  apart : areas.Pairwise Area.Apart

namespace AreaMem

/-- The `n` bytes from `p` on lie in one area. -/
def Inside (m : AreaMem w β) (p n : Nat) : Prop := ∃ a ∈ m.areas, a.Spans p (p + n)

instance (m : AreaMem w β) (p n : Nat) : Decidable (m.Inside p n) :=
  inferInstanceAs (Decidable (∃ a ∈ m.areas, _))

/-- The memory with `n` bytes from `dst` on replaced, the one at distance `k` by `src k`. -/
def overlay (m : AreaMem w β) (dst : BitVec w) (src : BitVec w → β) (n : Nat) : AreaMem w β :=
  { m with byte := fun a => if (a - dst).toNat < n then src (a - dst) else m.byte a }

/-- Writes the bytes, if the area they go to has room for all of them. -/
def blit (m : AreaMem w β) (dst : BitVec w) (src : BitVec w → β) (n : Nat) : Option (AreaMem w β) :=
  if m.Inside dst.toNat n then some (m.overlay dst src n) else none

def release (m : AreaMem w β) (p : BitVec w) : AreaMem w β :=
  { m with
    areas := m.areas.filter (·.start ≠ p)
    short := fun a member => m.short a (List.mem_of_mem_filter member)
    bounded := fun a member => m.bounded a (List.mem_of_mem_filter member)
    apart := m.apart.filter _ }

def Room (m : AreaMem w β) (a : Area w) : Prop := a.size < 2 ^ (w - 1) ∧ a.stop < 2 ^ w ∧ ∀ b ∈ m.areas, a.Apart b

instance (m : AreaMem w β) (a : Area w) : Decidable (m.Room a) := inferInstanceAs (Decidable (_ ∧ _))

/-- Hands out a new area, which holds what was there. -/
def allocate (m : AreaMem w β) (a : Area w) : Option (AreaMem w β) :=
  if room : m.Room a then
    some { m with
      areas := a :: m.areas
      short := List.forall_mem_cons.mpr ⟨room.1, m.short⟩
      bounded := List.forall_mem_cons.mpr ⟨room.2.1, m.bounded⟩
      apart := List.pairwise_cons.mpr ⟨room.2.2, m.apart⟩ }
  else none

variable {m m' : AreaMem w β} {a b : Area w} {dst : BitVec w} {src src' : BitVec w → β} {n n' p : Nat}

theorem overlay_congr (same : ∀ k : BitVec w, k.toNat < n → src k = src' k) :
    m.overlay dst src n = m.overlay dst src' n := by
  unfold overlay
  congr 1
  funext a
  split
  · next within => exact same _ within
  · rfl

theorem overlay_overlay {whole : BitVec w → β} (small : n + n' < 2 ^ w)
    (first : ∀ k : BitVec w, k.toNat < n → src k = whole k)
    (second : ∀ k : BitVec w, k.toNat < n' → src' k = whole (k + BitVec.ofNat w n)) :
    (m.overlay dst src n).overlay (dst + BitVec.ofNat w n) src' n' = m.overlay dst whole (n + n') := by
  unfold overlay
  congr 1
  funext a
  have apart : a - (dst + BitVec.ofNat w n) = a - dst - BitVec.ofNat w n := by
    rw [BitVec.sub_eq_add_neg, BitVec.neg_add, BitVec.sub_eq_add_neg (-dst), ← BitVec.add_assoc,
      ← BitVec.sub_eq_add_neg, ← BitVec.sub_eq_add_neg]
  have short : (BitVec.ofNat w n).toNat = n := by
    rw [BitVec.toNat_ofNat, Nat.mod_eq_of_lt (by omega)]
  simp only [apart]
  generalize a - dst = k
  by_cases early : k.toNat < n
  · have behind : k < BitVec.ofNat w n := by
      rw [BitVec.lt_def, short]
      exact early
    have far : ¬ (k - BitVec.ofNat w n).toNat < n' := by
      rw [BitVec.toNat_sub_of_lt behind, short]
      omega
    rw [if_neg far, if_pos early, if_pos (by omega), first k early]
  · have ahead : BitVec.ofNat w n ≤ k := by
      rw [BitVec.le_def, short]
      omega
    have distance : (k - BitVec.ofNat w n).toNat = k.toNat - n := by
      rw [BitVec.toNat_sub_of_le ahead, short]
    by_cases late : k.toNat < n + n'
    · rw [if_pos (by omega), if_pos late, second _ (by omega), BitVec.sub_add_cancel]
    · rw [if_neg (by omega), if_neg early, if_neg late]

theorem blit_some (inside : m.Inside dst.toNat n) : m.blit dst src n = some (m.overlay dst src n) :=
  if_pos inside

theorem blit_inside (done : m.blit dst src n = some m') : m.Inside dst.toNat n := by
  unfold blit at done
  split at done
  · assumption
  · cases done

theorem blit_areas (done : m.blit dst src n = some m') : m'.areas = m.areas := by
  rw [blit_some (blit_inside done)] at done
  obtain rfl := Option.some.inj done
  rfl

theorem areas_release : (m.release dst).areas ⊆ m.areas := fun _ member => List.mem_of_mem_filter member

theorem allocate_isSome : (m.allocate a).isSome ↔ m.Room a := by
  unfold allocate
  split
  · rename_i room
    exact iff_of_true rfl room
  · rename_i full
    exact iff_of_false nofun full

theorem allocate_areas (done : m.allocate a = some m') : m'.areas = a :: m.areas := by
  unfold allocate at done
  split at done
  · obtain rfl := Option.some.inj done
    rfl
  · cases done

/-- An area that was handed out and is taken back. -/
theorem release_newest (newest : m.areas = a :: m'.areas) : (m.release a.start).areas = m'.areas := by
  have apart := newest ▸ m.apart
  have others : ∀ b ∈ m'.areas, decide (b.start ≠ a.start) = true := by
    intro b member
    have away := (List.pairwise_cons.mp apart).1 b member
    rw [decide_eq_true_eq]
    intro same
    unfold Area.Apart Area.stop at away
    rw [same] at away
    omega
  show m.areas.filter (fun b => decide (b.start ≠ a.start)) = m'.areas
  rw [newest, List.filter_cons_of_neg (by simp), List.filter_eq_self.mpr others]

theorem inside_short (inside : m.Inside p n) : n < 2 ^ (w - 1) := by
  obtain ⟨a, member, low, high⟩ := inside
  have := m.short a member
  unfold Area.stop at high
  omega

theorem inside_bound (inside : m.Inside p n) : p + n < 2 ^ w := by
  obtain ⟨a, member, low, high⟩ := inside
  exact Nat.lt_of_le_of_lt high (m.bounded a member)

theorem Inside.part {q : Nat} (inside : m.Inside p n) (low : p ≤ q) (high : q + n' ≤ p + n) : m.Inside q n' := by
  obtain ⟨a, member, spans⟩ := inside
  exact ⟨a, member, spans.mono low high⟩

theorem area_unique (ha : a ∈ m.areas) (hb : b ∈ m.areas) (inA : a.Spans p p) (inB : b.Spans p p) : a = b := by
  by_contra different
  have apart := m.apart.forall ha hb different
  unfold Area.Apart at apart
  unfold Area.Spans at inA inB
  omega

end AreaMem

end TwinpassGateway.Foundation
