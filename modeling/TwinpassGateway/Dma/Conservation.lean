import TwinpassGateway.Dma.Rings
import TwinpassGateway.Foundation.Run

/-!
When no buffer of a DMA device is lost or released twice.
-/

namespace TwinpassGateway.Dma

open Foundation

variable {dev : Device} {ch : Chan}

/-! ### The account -/

/-- Every buffer that came in has gone exactly once or is still in a ring. -/
structure Device.Conserved (dev : Device) : Prop where
  received : dev.allocated = dev.handed + dev.rxReleased + dev.rxOutstanding
  sent : dev.written = dev.txReleased + dev.txOutstanding

structure Device.Kept (dev : Device) : Prop where
  conserved : dev.Conserved
  tx : ∀ ch ∈ dev.tx, ch.Fits
  rx : ∀ ch ∈ dev.rx, ch.Fits

theorem fits_set {chans : List Chan} {i : Nat} (fits : ∀ ch ∈ chans, ch.Fits) (new : ch.Fits) :
    ∀ ch' ∈ chans.set i ch, ch'.Fits := by
  intro ch' member
  rcases List.mem_or_eq_of_mem_set member with before | rfl
  · exact fits ch' before
  · exact new

theorem fits_modify {chans : List Chan} {i : Nat} {k : Chan → Chan} (fits : ∀ ch ∈ chans, ch.Fits)
    (new : ∀ ch ∈ chans, (k ch).Fits) : ∀ ch ∈ chans.modify i k, ch.Fits := by
  intro ch member
  rcases mem_modify member with before | ⟨old, before, rfl⟩
  · exact fits ch before
  · exact new old before

/-! ### Steps outside the driver -/

theorem control_kept {transmit on : Bool} {i : Nat} (kept : dev.Kept) : (dev.step (.control transmit i on)).Kept := by
  obtain ⟨⟨received, sent⟩, tx, rx⟩ := kept
  have switched : ∀ ch : Chan, ch.Fits → Chan.Fits { ch with control := on } :=
    fun ch fits => ⟨fits.curr, fits.prev, fits.sized⟩
  cases transmit with
  | true =>
    have same : (dev.step (.control true i on)).txOutstanding = dev.txOutstanding :=
      tally_modify (f := fun ch : Chan => ringItems va ch.ring) (k := fun ch : Chan => { ch with control := on })
        (fun _ _ => rfl) i
    refine ⟨⟨received, ?_⟩, fits_modify tx fun ch member => switched ch (tx ch member), rx⟩
    rw [same]
    exact sent
  | false =>
    have same : (dev.step (.control false i on)).rxOutstanding = dev.rxOutstanding :=
      tally_modify (f := Chan.rxItems) (k := fun ch : Chan => { ch with control := on }) (fun _ _ => rfl) i
    refine ⟨⟨?_, sent⟩, tx, fits_modify rx fun ch member => switched ch (rx ch member)⟩
    rw [same]
    exact received

theorem select_kept {transmit : Bool} {i : Nat} (kept : dev.Kept) : (dev.step (.select transmit i)).Kept := by
  cases transmit <;> exact ⟨⟨kept.conserved.received, kept.conserved.sent⟩, kept.tx, kept.rx⟩

theorem complete_spec (fits : ch.Fits) (j : Nat) (received : Option (BitVec 16)) :
    (ch.complete j received).Fits ∧ (ch.complete j received).live = ch.live ∧
      ∀ address, ringItems address (ch.complete j received).ring = ringItems address ch.ring := by
  unfold Chan.complete
  split
  · exact ⟨fits, rfl, fun _ => rfl⟩
  · rename_i x found
    split
    · rename_i own
      refine ⟨setSlot_fits fits (done_sized x received), rfl, fun address => ?_⟩
      have total := tally_set (f := Slot.item address) found (x.done received)
      rw [done_item own (fits.sized x (List.mem_of_getElem? found))] at total
      exact add_right_cancel total
    · exact ⟨fits, rfl, fun _ => rfl⟩

theorem complete_kept {transmit : Bool} {i j len : Nat} (kept : dev.Kept) :
    (dev.step (.complete transmit i j len)).Kept := by
  obtain ⟨⟨received, sent⟩, tx, rx⟩ := kept
  cases transmit with
  | true =>
    have same : (dev.step (.complete true i j len)).txOutstanding = dev.txOutstanding :=
      tally_modify (fun ch member => (complete_spec (tx ch member) j none).2.2 va) i
    refine ⟨⟨received, ?_⟩, fits_modify tx fun ch member => (complete_spec (tx ch member) j _).1, rx⟩
    rw [same]
    exact sent
  | false =>
    have same : (dev.step (.complete false i j len)).rxOutstanding = dev.rxOutstanding := by
      refine tally_modify (fun ch member => ?_) i
      obtain ⟨-, live, items⟩ := complete_spec (rx ch member) j (some (BitVec.ofNat 16 len))
      rw [Chan.rxItems, Chan.rxItems, live]
      exact congrArg (fun total => if ch.live then total else 0) (items vaPhys)
    refine ⟨⟨?_, sent⟩, tx, fits_modify rx fun ch member => (complete_spec (rx ch member) j _).1⟩
    rw [same]
    exact received

/-! ### Write and read -/

theorem busy_of_room (room : ¬ ch.full = true) : (ch.slot ch.currDesc).busy = false := by
  have free : (ch.slot ch.currDesc).own = false ∧ (ch.slot ch.currDesc).c = false := by
    simpa [Chan.full] using room
  simp [Slot.busy, Slot.complete, free.1, free.2]

theorem write_kept {dataptr len opt : Nat} (kept : dev.Kept) (ok : dev.WriteOk dataptr len) :
    (dev.step (.write dataptr len opt)).Kept := by
  obtain ⟨⟨received, sent⟩, tx, rx⟩ := kept
  simp only [Device.step, dmaDeviceWrite]
  cases found : dev.tx[dev.currentTxChan]? with
  | none => exact ⟨⟨received, sent⟩, tx, rx⟩
  | some ch =>
    have fits := tx ch (List.mem_of_getElem? found)
    obtain ⟨fits', released⟩ := reclaim_spec fits ch.ring.length
    have accepted := ok ch found
    rcases reclaimed : ch.reclaim ch.ring.length with ⟨ch', freed⟩
    rw [reclaimed] at fits' released accepted
    have moved (new : Chan) := tally_set (f := fun ch : Chan => ringItems va ch.ring) found new
    simp only [reclaimed]
    split
    · have total := balance_step 0 freed sent (moved ch') (by rw [add_zero]; exact released.symm)
      rw [add_zero] at total
      exact ⟨⟨received, total⟩, fits_set tx fits', rx⟩
    · rename_i room
      obtain ⟨cached, aligned, positive⟩ := accepted.resolve_left room
      rw [aligned]
      have busy : Slot.busy ⟨txStatus 0 len, cphysaddr dataptr - 0, opt⟩ = true :=
        busy_of_own (txStatus_own 0 len) fun _ => txStatus_length positive
      have filled := setSlot_items va fits'.curr ⟨txStatus 0 len, cphysaddr dataptr - 0, opt⟩
      rw [item_of_free (busy_of_room room), item_of_busy busy, va_cached cached rfl, add_zero] at filled
      have total := balance_step {(dataptr, opt)} freed sent
        (moved (ch'.setSlot ch'.currDesc ⟨txStatus 0 len, cphysaddr dataptr - 0, opt⟩).advance) ?_
      · exact ⟨⟨received, total⟩, fits_set tx (advance_fits (setSlot_fits fits' fun _ => txStatus_length positive)), rx⟩
      · show ringItems va ch.ring + {(dataptr, opt)} =
          ringItems va (ch'.setSlot ch'.currDesc ⟨txStatus 0 len, cphysaddr dataptr - 0, opt⟩).ring + freed
        rw [filled, ← released]
        exact add_right_comm _ _ _

theorem read_kept {r : Alloc} (kept : dev.Kept) (ok : dev.ReadOk r) : (dev.step (.read r)).Kept := by
  obtain ⟨⟨received, sent⟩, tx, rx⟩ := kept
  simp only [Device.step, dmaDeviceRead]
  cases found : dev.rx[dev.currentRxChan]? with
  | none => exact ⟨⟨received, sent⟩, tx, rx⟩
  | some ch =>
    have fits := rx ch (List.mem_of_getElem? found)
    have fine := ok ch found
    have moved (new : Chan) := tally_set (f := Chan.rxItems) found new
    dsimp only
    split
    · exact ⟨⟨received, sent⟩, tx, rx⟩
    · rename_i ready
      have complete : (ch.slot ch.currDesc).complete = true := by simpa using ready
      split
      · -- the buffer stays in its descriptor, and the ring goes on
        have same : Chan.rxItems ch.advance = ch.rxItems := rfl
        have total := add_right_cancel (same ▸ moved ch.advance)
        refine ⟨⟨?_, sent⟩, tx, fits_set rx (advance_fits fits)⟩
        exact received.trans (congrArg (dev.handed + dev.rxReleased + ·) total.symm)
      · rename_i present
        obtain ⟨live, positive⟩ := (fine.resolve_left (by simp [complete])).resolve_left present
        generalize newSlot : (⟨readStatus r.byteOffset ch.packetSize, cphysaddr r.buffer, r.opt⟩ : Slot) = y
        have busy : y.busy = true := by
          rw [← newSlot]
          exact busy_of_own (readStatus_own _ _) fun _ => readStatus_length positive
        have sized : y.Sized := by
          rw [← newSlot]
          exact fun _ => readStatus_length positive
        have items : y.item vaPhys = {(cphysaddr r.buffer, r.opt)} := by
          rw [item_of_busy busy, ← newSlot, vaPhys_cphysaddr]
        have replaced := setSlot_items vaPhys fits.curr y
        rw [item_of_busy (busy_of_complete complete), items] at replaced
        have total := balance_step {(cphysaddr r.buffer, r.opt)} {(vaPhys (ch.slot ch.currDesc).dataPointer,
          (ch.slot ch.currDesc).opt)} received (moved (ch.setSlot ch.currDesc y).advance) ?_
        · refine ⟨⟨?_, sent⟩, tx, fits_set rx (advance_fits (setSlot_fits fits sized))⟩
          rw [add_right_comm dev.handed] at total
          exact total
        · have before : ch.rxItems = ringItems vaPhys ch.ring := if_pos live
          have after : (ch.setSlot ch.currDesc y).advance.rxItems = ringItems vaPhys (ch.setSlot ch.currDesc y).ring :=
            if_pos live
          rw [before, after, replaced]

/-! ### Register and unregister -/

theorem unregisterTx_spec (fits : ch.Fits) :
    ch.unregisterTx.1.Fits ∧ ch.unregisterTx.2 + ringItems va ch.unregisterTx.1.ring = ringItems va ch.ring := by
  have inside : 0 < ch.ring.length := Nat.lt_of_le_of_lt (Nat.zero_le _) fits.prev
  unfold Chan.unregisterTx
  split
  · refine ⟨⟨by simpa using inside, by simpa using inside, map_clear_sized ch.ring⟩, ?_⟩
    exact (congrArg _ (map_clear_items va ch.ring)).trans (add_zero _)
  · exact ⟨fits, zero_add _⟩

theorem unregisterTx_empty (off : ch.control = false → ch.Empty) : ringItems va ch.unregisterTx.1.ring = 0 := by
  unfold Chan.unregisterTx
  split
  · exact map_clear_items va ch.ring
  · rename_i stays
    exact ringItems_eq_zero (off (Bool.eq_false_of_not_eq_true stays))

theorem unregisterRx_fits (fits : ch.Fits) : ch.unregisterRx.1.Fits := by
  have inside : 0 < ch.ring.length := Nat.lt_of_le_of_lt (Nat.zero_le _) fits.prev
  exact ⟨inside, inside, fits.sized⟩

theorem unregisterRx_items (cold : ch.live = false → ch.Empty) : ch.unregisterRx.2 = ch.rxItems := by
  unfold Chan.rxItems
  split
  · rfl
  · rename_i dead
    exact ringItems_eq_zero (cold (Bool.eq_false_of_not_eq_true dead))

theorem map_fits {chans : List Chan} {k : Chan → Chan} (new : ∀ ch ∈ chans, (k ch).Fits) :
    ∀ ch ∈ chans.map k, ch.Fits := by
  intro ch member
  obtain ⟨old, before, rfl⟩ := List.mem_map.mp member
  exact new old before

theorem unregister_none (ok : dev.Orderly .unregister) :
    (dev.step .unregister).txOutstanding = 0 ∧ (dev.step .unregister).rxOutstanding = 0 := by
  refine ⟨tally_eq_zero fun ch member => ?_, tally_eq_zero fun ch member => ?_⟩
  · obtain ⟨old, before, rfl⟩ := List.mem_map.mp member
    exact unregisterTx_empty (ok.1 old before)
  · obtain ⟨old, before, rfl⟩ := List.mem_map.mp member
    rfl

theorem unregister_kept (kept : dev.Kept) (ok : dev.Orderly .unregister) : (dev.step .unregister).Kept := by
  obtain ⟨txNone, rxNone⟩ := unregister_none ok
  obtain ⟨⟨received, sent⟩, tx, rx⟩ := kept
  obtain ⟨off, cold⟩ := ok
  have freedTx : tally (fun ch : Chan => ch.unregisterTx.2) dev.tx = dev.txOutstanding := by
    refine tally_congr fun ch member => ?_
    have left := (unregisterTx_spec (tx ch member)).2
    rwa [unregisterTx_empty (off ch member), add_zero] at left
  have freedRx : tally (fun ch : Chan => ch.unregisterRx.2) dev.rx = dev.rxOutstanding :=
    tally_congr fun ch member => unregisterRx_items (cold ch member)
  refine ⟨⟨?_, ?_⟩, map_fits fun ch member => (unregisterTx_spec (tx ch member)).1,
    map_fits fun ch member => unregisterRx_fits (rx ch member)⟩
  · rw [rxNone, add_zero]
    simp only [Device.step, dmaDeviceUnregister, freedRx]
    rw [← add_assoc]
    exact received
  · rw [txNone, add_zero]
    simp only [Device.step, dmaDeviceUnregister, freedTx]
    exact sent

theorem registerTx_spec (fits : ch.Fits) (on : ch.control = true → ch.Empty) :
    ch.registerTx.Fits ∧ ringItems va ch.registerTx.ring = ringItems va ch.ring := by
  unfold Chan.registerTx
  split
  · rename_i cleared
    refine ⟨⟨by simpa using fits.curr, by simpa using fits.prev, map_clear_sized ch.ring⟩, ?_⟩
    rw [ringItems_eq_zero (on cleared)]
    exact map_clear_items va ch.ring
  · exact ⟨fits, rfl⟩

theorem registerRx_spec {alloc : Nat → Alloc} (fits : ch.Fits)
    (ok : ch.control = true → FillOk ch.live ch.packetSize alloc 0 ch.ring) :
    (ch.registerRx alloc).1.Fits ∧ (ch.registerRx alloc).1.rxItems = ch.rxItems + (ch.registerRx alloc).2 := by
  unfold Chan.registerRx
  split
  · rename_i on
    obtain ⟨sized, length, items⟩ := fill_spec fits.sized (ok on)
    refine ⟨⟨?_, ?_, sized⟩, items⟩
    · rw [length]
      exact fits.curr
    · rw [length]
      exact fits.prev
  · exact ⟨fits, (add_zero _).symm⟩

theorem register_kept {alloc : Nat → Nat → Alloc} (kept : dev.Kept) (ok : dev.Orderly (.register alloc)) :
    (dev.step (.register alloc)).Kept := by
  obtain ⟨⟨received, sent⟩, tx, rx⟩ := kept
  obtain ⟨on, fill⟩ := ok
  have spec : ∀ p ∈ dev.rx.zipIdx, (p.1.registerRx (alloc p.2)).1.Fits ∧
      (p.1.registerRx (alloc p.2)).1.rxItems = p.1.rxItems + (p.1.registerRx (alloc p.2)).2 :=
    fun p member => registerRx_spec (rx p.1 (List.fst_mem_of_mem_zipIdx member)) (fill p member)
  have sameTx : (dev.step (.register alloc)).txOutstanding = dev.txOutstanding := by
    refine (tally_map _ _ _).trans (tally_congr fun ch member => ?_)
    exact (registerTx_spec (tx ch member) (on ch member)).2
  have moreRx : (dev.step (.register alloc)).rxOutstanding =
      dev.rxOutstanding + tally Prod.snd (dev.rx.zipIdx.map fun p => p.1.registerRx (alloc p.2)) := by
    have each : dev.rxOutstanding = tally (fun p : Chan × Nat => p.1.rxItems) dev.rx.zipIdx := by
      conv_lhs => rw [Device.rxOutstanding, ← List.zipIdx_map_fst 0 dev.rx]
      exact tally_map _ _ _
    rw [each, tally_map, ← tally_add]
    simp only [Device.rxOutstanding, Device.step, dmaDeviceRegister, tally_map]
    exact tally_congr fun p member => (spec p member).2
  refine ⟨⟨?_, ?_⟩, map_fits fun ch member => (registerTx_spec (tx ch member) (on ch member)).1, ?_⟩
  · rw [moreRx]
    simp only [Device.step, dmaDeviceRegister]
    rw [received, add_assoc]
  · rw [sameTx]
    exact sent
  · intro ch member
    obtain ⟨q, inside, rfl⟩ := List.mem_map.mp member
    obtain ⟨p, before, rfl⟩ := List.mem_map.mp inside
    exact (spec p before).1

/-! ### Runs -/

theorem step_kept {e : Event} (kept : dev.Kept) (ok : dev.Orderly e) : (dev.step e).Kept := by
  cases e with
  | control transmit i on => exact control_kept kept
  | select transmit i => exact select_kept kept
  | register alloc => exact register_kept kept ok
  | unregister => exact unregister_kept kept ok
  | read r => exact read_kept kept ok
  | write dataptr len opt => exact write_kept kept ok
  | complete transmit i j len => exact complete_kept kept

/-- As `dma_chip_init` leaves a channel, apart from what its driver sets. -/
structure Chan.Initial (ch : Chan) : Prop where
  ring : 0 < ch.ring.length
  curr : ch.currDesc = 0
  prev : ch.prevDesc = 0
  live : ch.live = false
  zero : ∀ x ∈ ch.ring, x.status = 0

structure Device.Initial (dev : Device) : Prop where
  tx : ∀ ch ∈ dev.tx, ch.Initial
  rx : ∀ ch ∈ dev.rx, ch.Initial
  none : dev.allocated = 0 ∧ dev.handed = 0 ∧ dev.rxReleased = 0 ∧ dev.written = 0 ∧ dev.txReleased = 0

theorem initial_empty (initial : ch.Initial) : ch.Fits ∧ ch.Empty := by
  have slots : ∀ x ∈ ch.ring, x.busy = false ∧ x.Sized := by
    intro x member
    have own : x.own = false := by simp [Slot.own, initial.zero x member]
    have c : x.c = false := by simp [Slot.c, initial.zero x member]
    exact ⟨by simp [Slot.busy, Slot.complete, own, c], fun owned => by simp [own] at owned⟩
  refine ⟨⟨?_, ?_, fun x member => (slots x member).2⟩, fun x member => (slots x member).1⟩
  · rw [initial.curr]
    exact initial.ring
  · rw [initial.prev]
    exact initial.ring

theorem initial_kept (initial : dev.Initial) : dev.Kept := by
  obtain ⟨allocated, handed, rxReleased, written, txReleased⟩ := initial.none
  have txNone : dev.txOutstanding = 0 :=
    tally_eq_zero fun ch member => ringItems_eq_zero (initial_empty (initial.tx ch member)).2
  have rxNone : dev.rxOutstanding = 0 := by
    refine tally_eq_zero fun ch member => ?_
    rw [Chan.rxItems, (initial.rx ch member).live]
    rfl
  refine ⟨⟨?_, ?_⟩, fun ch member => (initial_empty (initial.tx ch member)).1,
    fun ch member => (initial_empty (initial.rx ch member)).1⟩
  · rw [rxNone, allocated, handed, rxReleased]
    rfl
  · rw [txNone, written, txReleased]
    rfl

structure Device.Grown (before after : Device) : Prop where
  allocated : before.allocated ≤ after.allocated
  handed : before.handed ≤ after.handed
  rxReleased : before.rxReleased ≤ after.rxReleased
  written : before.written ≤ after.written
  txReleased : before.txReleased ≤ after.txReleased

theorem Device.Grown.refl (dev : Device) : dev.Grown dev := ⟨le_rfl, le_rfl, le_rfl, le_rfl, le_rfl⟩

theorem Device.Grown.trans {a b c : Device} (first : a.Grown b) (second : b.Grown c) : a.Grown c :=
  ⟨first.allocated.trans second.allocated, first.handed.trans second.handed, first.rxReleased.trans second.rxReleased,
    first.written.trans second.written, first.txReleased.trans second.txReleased⟩

theorem step_grown (dev : Device) (e : Event) : dev.Grown (dev.step e) := by
  have more (a b : Multiset Buffer) : a ≤ a + b := Multiset.le_add_right a b
  cases e with
  | control transmit i on => cases transmit <;> exact ⟨le_rfl, le_rfl, le_rfl, le_rfl, le_rfl⟩
  | select transmit i => cases transmit <;> exact ⟨le_rfl, le_rfl, le_rfl, le_rfl, le_rfl⟩
  | complete transmit i j len => cases transmit <;> exact ⟨le_rfl, le_rfl, le_rfl, le_rfl, le_rfl⟩
  | register alloc => exact ⟨more _ _, le_rfl, le_rfl, le_rfl, le_rfl⟩
  | unregister => exact ⟨le_rfl, le_rfl, more _ _, le_rfl, more _ _⟩
  | read r =>
    simp only [Device.step, dmaDeviceRead]
    split
    · exact Device.Grown.refl dev
    · split
      · exact Device.Grown.refl dev
      · split
        · exact ⟨le_rfl, le_rfl, le_rfl, le_rfl, le_rfl⟩
        · exact ⟨more _ _, more _ _, le_rfl, le_rfl, le_rfl⟩
  | write dataptr len opt =>
    simp only [Device.step, dmaDeviceWrite]
    split
    · exact Device.Grown.refl dev
    · split
      · exact ⟨le_rfl, le_rfl, le_rfl, le_rfl, more _ _⟩
      · exact ⟨le_rfl, le_rfl, le_rfl, more _ _, more _ _⟩

theorem run_grown (dev : Device) (events : List Event) : dev.Grown (exec Device.step dev events) := by
  induction events generalizing dev with
  | nil => exact Device.Grown.refl dev
  | cons e rest ih => exact (step_grown dev e).trans (ih (dev.step e))

/-- What is handed out or released after `before` is among what has come in since. -/
structure Device.Since (before after : Device) : Prop where
  received : after.handed - before.handed + (after.rxReleased - before.rxReleased) ≤ after.allocated - before.allocated
  sent : after.txReleased - before.txReleased ≤ after.written - before.written

theorem since_of_none {before after : Device} (grown : before.Grown after) (first : before.Conserved)
    (second : after.Conserved) (txNone : before.txOutstanding = 0) (rxNone : before.rxOutstanding = 0) :
    before.Since after := by
  obtain ⟨a, allocated⟩ := Multiset.le_iff_exists_add.mp grown.allocated
  obtain ⟨h, handed⟩ := Multiset.le_iff_exists_add.mp grown.handed
  obtain ⟨r, rxReleased⟩ := Multiset.le_iff_exists_add.mp grown.rxReleased
  obtain ⟨w, written⟩ := Multiset.le_iff_exists_add.mp grown.written
  obtain ⟨t, txReleased⟩ := Multiset.le_iff_exists_add.mp grown.txReleased
  refine ⟨?_, ?_⟩
  · have start := first.received
    have now := second.received
    rw [rxNone, add_zero] at start
    rw [allocated, handed, rxReleased, start] at now
    have came : a = h + r + after.rxOutstanding := by
      refine add_left_cancel (a := before.handed + before.rxReleased) (now.trans ?_)
      abel
    rw [allocated, handed, rxReleased, add_tsub_cancel_left, add_tsub_cancel_left,
      add_tsub_cancel_left, came]
    exact Multiset.le_add_right _ _
  · have start := first.sent
    have now := second.sent
    rw [txNone, add_zero] at start
    rw [written, txReleased, start, add_assoc] at now
    rw [written, txReleased, add_tsub_cancel_left, add_tsub_cancel_left, add_left_cancel now]
    exact Multiset.le_add_right _ _

/-- In every orderly run each buffer is accounted for exactly once, an unregistration leaves none outstanding, and
what happens after it concerns only buffers that came in after it. -/
theorem orderly_conserved {events : List Event} (initial : dev.Initial)
    (orderly : Guarded Device.step Device.Orderly dev events) :
    (exec Device.step dev events).Conserved ∧ ∀ first second, events = first ++ .unregister :: second →
      (exec Device.step dev (first ++ [.unregister])).txOutstanding = 0 ∧
      (exec Device.step dev (first ++ [.unregister])).rxOutstanding = 0 ∧
      (exec Device.step dev (first ++ [.unregister])).Since (exec Device.step dev events) := by
  have reached {events : List Event} (orderly : Guarded Device.step Device.Orderly dev events) :
      (exec Device.step dev events).Kept :=
    guarded_invariant (fun _ _ kept ok => step_kept kept ok) (initial_kept initial) orderly
  refine ⟨(reached orderly).conserved, ?_⟩
  rintro first second rfl
  obtain ⟨before, now, -⟩ := guarded_append.mp orderly
  have none := unregister_none now
  have cycle : exec Device.step dev (first ++ [.unregister]) = (exec Device.step dev first).step .unregister := by
    rw [exec_append]
    rfl
  have later : exec Device.step dev (first ++ .unregister :: second) =
      exec Device.step ((exec Device.step dev first).step .unregister) second := by
    rw [exec_append]
    rfl
  rw [cycle]
  refine ⟨none.1, none.2, since_of_none ?_ (unregister_kept (reached before) now).conserved (reached orderly).conserved
    none.1 none.2⟩
  rw [later]
  exact run_grown _ second

def smallDevice : Device :=
  let ch : Chan := { control := false, ring := [{}, {}], packetSize := 1536 }
  { tx := [ch], rx := [ch], txBurstLen := 2 }

theorem smallDevice_initial : smallDevice.Initial := by
  refine ⟨?_, ?_, rfl, rfl, rfl, rfl, rfl⟩
  all_goals
    intro ch member
    rw [List.mem_singleton.mp member]
    refine ⟨by decide, rfl, rfl, rfl, fun x inside => ?_⟩
    rcases List.mem_cons.mp inside with rfl | last
    · rfl
    · rw [List.mem_singleton.mp last]

def pages (base : Nat) (_ j : Nat) : Alloc := { buffer := base + 0x1000 * j, byteOffset := 0, opt := base + j }

theorem orderly_conserved_two_cycles :
    (exec Device.step smallDevice [.control true 0 true, .control false 0 true, .register (pages 0x80100000),
      .write 0x80010000 100 7, .complete true 0 0 0, .write 0x80020000 60 8, .complete false 0 0 64,
      .read { buffer := 0x80200000, byteOffset := 0, opt := 9 }, .unregister, .control false 0 true,
      .register (pages 0x80300000), .unregister]).Conserved :=
  (orderly_conserved smallDevice_initial (by decide +kernel)).1

/-- A second registration that gets no buffer leaves the descriptors of the first, and the next unregistration
releases their buffers again. -/
theorem released_again :
    let dev := exec Device.step smallDevice [.control false 0 true, .register (pages 0x80100000), .unregister,
      .control false 0 true, .register fun _ _ => { buffer := 0, byteOffset := 0, opt := 0 }, .unregister]
    dev.allocated.count (0x101000, 0x80100001) = 1 ∧ dev.rxReleased.count (0x101000, 0x80100001) = 2 := by
  decide +kernel

end TwinpassGateway.Dma
