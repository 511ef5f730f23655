import TwinpassGateway.Dma.Device

/-!
What each operation does to the buffers of one descriptor ring.
-/

namespace TwinpassGateway.Dma

open Foundation

variable {x y : Slot} {ch : Chan} {dev : Device} {j : Nat}

/-! ### Status words -/

theorem dataLength_of_low {w : U32} {len : Nat} (low : ∀ i < 16, w.getLsbD i = len.testBit i)
    (positive : len % 2 ^ 16 ≠ 0) : 0 < (w.extractLsb' 0 16).toNat := by
  have same : w.extractLsb' 0 16 = BitVec.ofNat 16 len := by
    refine BitVec.eq_of_getLsbD_eq fun i bound => ?_
    rw [BitVec.getLsbD_extractLsb', BitVec.getLsbD_ofNat, Nat.zero_add, low i bound]
  rw [same, BitVec.toNat_ofNat]
  omega

theorem low_ofNat {n i : Nat} (bound : i < n) (len : Nat) : (BitVec.ofNat n len).getLsbD i = len.testBit i := by
  rw [BitVec.getLsbD_ofNat, decide_eq_true bound, Bool.true_and]

theorem low_shift {i : Nat} (bound : i < 16) (w : U32) : (w <<< 23).getLsbD i = false := by
  rw [BitVec.getLsbD_shiftLeft]
  simp [show i < 23 by omega]

theorem txStatus_own (off len : Nat) : (txStatus off len).getLsbD 31 = true := by
  simp [txStatus, dmaOwn]

theorem txStatus_length {off len : Nat} (positive : len % 2 ^ 16 ≠ 0) :
    0 < ((txStatus off len).extractLsb' 0 16).toNat := by
  refine dataLength_of_low (fun i bound => ?_) positive
  have flags : (dmaOwn ||| dmaDescSopSet ||| dmaDescEopSet).getLsbD i = false := by
    interval_cases i <;> decide
  rw [txStatus, BitVec.getLsbD_or, BitVec.getLsbD_or, flags, low_shift bound, low_ofNat (by omega)]
  rfl

theorem readStatus_own (off len : Nat) : (readStatus off len).getLsbD 31 = true := by
  simp [readStatus, dmaOwn]

theorem readStatus_length {off len : Nat} (positive : len % 2 ^ 16 ≠ 0) :
    0 < ((readStatus off len).extractLsb' 0 16).toNat := by
  refine dataLength_of_low (fun i bound => ?_) positive
  have flags : dmaOwn.getLsbD i = false := by interval_cases i <;> decide
  rw [readStatus, BitVec.getLsbD_or, BitVec.getLsbD_or, flags, low_shift bound, low_ofNat (by omega)]
  rfl

theorem registerStatus_own (off len : Nat) : (registerStatus off len).getLsbD 31 = true := by
  simp [registerStatus, dmaOwn]

theorem registerStatus_length {off len : Nat} (positive : len % 2 ^ 16 ≠ 0) :
    0 < ((registerStatus off len).extractLsb' 0 16).toNat := by
  refine dataLength_of_low (fun i bound => ?_) positive
  have flags : dmaOwn.getLsbD i = false := by interval_cases i <;> decide
  rw [registerStatus, BitVec.getLsbD_or, BitVec.getLsbD_or, flags, low_shift bound, BitVec.getLsbD_setWidth,
    low_ofNat bound]
  simp [show i < 32 by omega]

theorem done_own (x : Slot) (received : Option (BitVec 16)) : (x.done received).own = false := by
  cases received <;> simp [Slot.done, Slot.own]

theorem done_c (x : Slot) (received : Option (BitVec 16)) : (x.done received).c = true := by
  cases received <;> simp [Slot.done, Slot.c]

/-! ### Descriptors -/

def Slot.Sized (x : Slot) : Prop := x.own = true → 0 < x.dataLength

theorem busy_of_own (own : x.own = true) (sized : x.Sized) : x.busy = true := by
  simp [Slot.busy, own, sized own]

theorem busy_of_complete (complete : x.complete = true) : x.busy = true := by simp [Slot.busy, complete]

theorem clear_own (x : Slot) : x.clear.own = false := by simp [Slot.clear, Slot.own]

theorem clear_busy (x : Slot) : x.clear.busy = false := by
  have free : x.clear.c = false := by simp [Slot.clear, Slot.c]
  rw [Slot.busy, Slot.complete, clear_own, free]
  rfl

theorem clear_sized (x : Slot) : x.clear.Sized := by
  intro own
  rw [clear_own] at own
  cases own

theorem done_busy (x : Slot) (received : Option (BitVec 16)) : (x.done received).busy = true := by
  simp [Slot.busy, Slot.complete, done_own, done_c]

theorem done_sized (x : Slot) (received : Option (BitVec 16)) : (x.done received).Sized := by
  intro own
  rw [done_own] at own
  cases own

theorem item_of_busy {address : Nat → Nat} (busy : x.busy = true) :
    x.item address = {(address x.dataPointer, x.opt)} := if_pos busy

theorem item_of_free {address : Nat → Nat} (free : x.busy = false) : x.item address = 0 := by
  rw [Slot.item, free]
  rfl

theorem done_item {address : Nat → Nat} (own : x.own = true) (sized : x.Sized) (received : Option (BitVec 16)) :
    (x.done received).item address = x.item address := by
  rw [item_of_busy (done_busy x received), item_of_busy (busy_of_own own sized)]
  rfl

theorem vaPhys_cphysaddr (a : Nat) : vaPhys (cphysaddr a) = cphysaddr a := by
  simp only [vaPhys, cphysaddr, va]
  omega

theorem va_cached {a off : Nat} (cached : a / 2 ^ 29 = 4) (aligned : off = 0) : va (cphysaddr a - off) = a := by
  simp only [cphysaddr, va, aligned]
  omega

/-! ### Rings -/

def ringItems (address : Nat → Nat) (ring : List Slot) : Multiset Buffer := tally (Slot.item address) ring

structure Chan.Fits (ch : Chan) : Prop where
  curr : ch.currDesc < ch.ring.length
  prev : ch.prevDesc < ch.ring.length
  sized : ∀ x ∈ ch.ring, x.Sized

theorem slot_found (inside : j < ch.ring.length) : ch.ring[j]? = some (ch.slot j) := by
  rw [Chan.slot, List.getD_eq_getElem?_getD, List.getElem?_eq_getElem inside, Option.getD_some]

theorem set_sized {ring : List Slot} (sized : ∀ x ∈ ring, x.Sized) (new : y.Sized) : ∀ x ∈ ring.set j y, x.Sized := by
  intro x member
  rcases List.mem_or_eq_of_mem_set member with before | rfl
  · exact sized x before
  · exact new

theorem setSlot_items (address : Nat → Nat) (inside : j < ch.ring.length) (y : Slot) :
    ringItems address (ch.setSlot j y).ring + (ch.slot j).item address =
      ringItems address ch.ring + y.item address := tally_set (slot_found inside) y

theorem setSlot_fits (fits : ch.Fits) (sized : y.Sized) : (ch.setSlot j y).Fits := by
  refine ⟨?_, ?_, set_sized fits.sized sized⟩
  · simpa [Chan.setSlot] using fits.curr
  · simpa [Chan.setSlot] using fits.prev

theorem advance_fits (fits : ch.Fits) : ch.advance.Fits := by
  refine ⟨?_, fits.prev, fits.sized⟩
  have inside := fits.curr
  simp only [Chan.advance]
  split <;> omega

theorem ringItems_eq_zero {address : Nat → Nat} (empty : ch.Empty) : ringItems address ch.ring = 0 :=
  tally_eq_zero fun x member => item_of_free (empty x member)

theorem map_clear_items (address : Nat → Nat) (ring : List Slot) : ringItems address (ring.map Slot.clear) = 0 := by
  refine tally_eq_zero fun x member => ?_
  obtain ⟨y, -, rfl⟩ := List.mem_map.mp member
  exact item_of_free (clear_busy y)

theorem map_clear_sized (ring : List Slot) : ∀ x ∈ ring.map Slot.clear, x.Sized := by
  intro x member
  obtain ⟨y, -, rfl⟩ := List.mem_map.mp member
  exact clear_sized y

theorem reclaimOne_fits (fits : ch.Fits) : ch.reclaimOne.Fits := by
  have inside : 0 < ch.ring.length := Nat.lt_of_le_of_lt (Nat.zero_le _) fits.prev
  refine ⟨?_, ?_, set_sized fits.sized (clear_sized _)⟩
  · simpa [Chan.reclaimOne] using fits.curr
  · simpa [Chan.reclaimOne] using Nat.mod_lt _ inside

theorem reclaimOne_items (fits : ch.Fits) (complete : (ch.slot ch.prevDesc).complete = true) :
    ringItems va ch.reclaimOne.ring + {(va (ch.slot ch.prevDesc).dataPointer, (ch.slot ch.prevDesc).opt)} =
      ringItems va ch.ring := by
  have total := tally_set (f := Slot.item va) (slot_found fits.prev) (ch.slot ch.prevDesc).clear
  rw [item_of_free (clear_busy _), item_of_busy (busy_of_complete complete), add_zero] at total
  exact total

theorem reclaim_spec (fits : ch.Fits) (turns : Nat) :
    (ch.reclaim turns).1.Fits ∧
      ringItems va (ch.reclaim turns).1.ring + (ch.reclaim turns).2 = ringItems va ch.ring := by
  induction turns generalizing ch with
  | zero => exact ⟨fits, add_zero _⟩
  | succ turns ih =>
    rw [Chan.reclaim]
    dsimp only
    split
    · rename_i complete
      obtain ⟨later, rest⟩ := ih (reclaimOne_fits fits)
      refine ⟨later, ?_⟩
      rw [← reclaimOne_items fits complete, ← rest]
      dsimp only
      abel
    · exact ⟨fits, add_zero _⟩

theorem fill_spec {live : Bool} {packetSize : Nat} {alloc : Nat → Alloc} {ring : List Slot}
    (sized : ∀ x ∈ ring, x.Sized) (ok : FillOk live packetSize alloc j ring) :
    (∀ x ∈ (fillRing packetSize alloc j ring).1, x.Sized) ∧
      (fillRing packetSize alloc j ring).1.length = ring.length ∧
      ringItems vaPhys (fillRing packetSize alloc j ring).1 =
        (if live then ringItems vaPhys ring else 0) + (fillRing packetSize alloc j ring).2 := by
  induction ring generalizing j with
  | nil =>
    refine ⟨fun x member => (by cases member), rfl, ?_⟩
    split <;> rfl
  | cons x rest ih =>
    have tail : ∀ y ∈ rest, y.Sized := fun y member => sized y (List.mem_cons_of_mem _ member)
    rw [FillOk] at ok
    rw [fillRing]
    split
    · rename_i null
      rw [if_pos null] at ok
      obtain ⟨free, left⟩ := ok
      refine ⟨?_, rfl, ?_⟩
      · intro y member
        rcases List.mem_cons.mp member with rfl | later
        · exact sized x List.mem_cons_self
        · exact tail y later
      · have free' : Slot.busy { x with opt := (alloc j).opt } = false := free
        simp only [ringItems, tally_cons, item_of_free free, item_of_free free', zero_add, add_zero]
        cases live with
        | true => rfl
        | false =>
          refine tally_eq_zero fun y member => item_of_free ?_
          cases busy : y.busy with
          | true => exact absurd (left y member busy) Bool.false_ne_true
          | false => rfl
    · rename_i present
      rw [if_neg present] at ok
      obtain ⟨free, positive, later⟩ := ok
      obtain ⟨sized', length', total⟩ := ih tail later
      refine ⟨?_, by simp [length'], ?_⟩
      · intro y member
        rcases List.mem_cons.mp member with rfl | inside
        · exact fun _ => registerStatus_length positive
        · exact sized' y inside
      · have busy : Slot.busy ⟨registerStatus (alloc j).byteOffset packetSize, cphysaddr (alloc j).buffer, (alloc j).opt⟩ =
            true := busy_of_own (registerStatus_own _ _) fun _ => registerStatus_length positive
        simp only [ringItems, tally_cons, item_of_busy busy, vaPhys_cphysaddr] at total ⊢
        rw [total]
        cases live with
        | true =>
          rw [item_of_free (free rfl)]
          simp only [if_true]
          abel
        | false =>
          simp only [Bool.false_eq_true, if_false]
          abel

end TwinpassGateway.Dma
