import TwinpassGateway.Dma.TransmitLedger

/-!
`dma_device_read` on one channel, and the engine that fills its descriptors one after the other.
-/

namespace TwinpassGateway.Dma

open Foundation Foundation.Window

/-! ### The machine -/

def rxSlot (packetSize : Nat) (r : Alloc) : Slot :=
  { status := readStatus r.byteOffset packetSize, dataPointer := cphysaddr r.buffer, opt := r.opt }

def Chan.readRx (ch : Chan) (r : Alloc) : (Nat × Nat × Nat) × Chan :=
  let x := ch.slot ch.currDesc
  if !x.complete then ((0, 0, 0), ch)
  else if r.buffer = 0 then ((0, 0, 0), ch.advance)
  else ((x.dataLength, va x.dataPointer, x.opt), (ch.setSlot ch.currDesc (rxSlot ch.packetSize r)).advance)

theorem dmaDeviceRead_chan {dev : Device} {ch : Chan} (current : dev.rx[dev.currentRxChan]? = some ch) (r : Alloc) :
    (dmaDeviceRead dev r).1 = (ch.readRx r).1 ∧
      (dmaDeviceRead dev r).2.rx[dev.currentRxChan]? = some (ch.readRx r).2 := by
  have inside : dev.currentRxChan < dev.rx.length := (List.getElem?_eq_some_iff.mp current).1
  unfold dmaDeviceRead Chan.readRx
  rw [current]
  simp only
  split
  · exact ⟨rfl, current⟩
  · split
    · exact ⟨rfl, by simp [inside]⟩
    · exact ⟨rfl, by simp [inside, rxSlot]⟩

def Slot.packet (x : Slot) : Nat × Nat := (x.dataPointer, x.dataLength)

structure RxRun where
  chan : Chan
  /-- The descriptor that the engine uses next. -/
  engine : Nat
  /-- Buffers that are allocated and not freed. -/
  live : List Nat
  held : List Nat := []
  received : List (Nat × Nat) := []
  returned : List (Nat × Nat) := []

inductive RxEvent where
  /-- The engine receives a packet, if it has the descriptor. -/
  | receive (len : BitVec 16)
  /-- A read; `r` is what `buffer_alloc` returns if it is called. -/
  | read (r : Alloc)
  | free (b : Nat)

def RxRun.read (s : RxRun) (r : Alloc) : RxRun :=
  let x := s.chan.slot s.chan.currDesc
  if !x.complete ∨ r.buffer = 0 then { s with chan := (s.chan.readRx r).2 }
  else
    { s with
      chan := (s.chan.readRx r).2
      live := cphysaddr r.buffer :: s.live
      held := x.dataPointer :: s.held
      returned := s.returned ++ [x.packet] }

def RxRun.receive (s : RxRun) (len : BitVec 16) : RxRun :=
  let x := s.chan.slot s.engine
  if x.own then
    { s with
      chan := s.chan.setSlot s.engine (x.done (some len))
      engine := place s.chan.ring.length s.engine 1
      received := s.received ++ [(x.done (some len)).packet] }
  else s

def RxRun.free (s : RxRun) (b : Nat) : RxRun :=
  if b ∈ s.held then { s with held := s.held.erase b, live := s.live.erase b } else s

def RxRun.step (s : RxRun) : RxEvent → RxRun
  | .receive len => s.receive len
  | .read r => s.read r
  | .free b => s.free b

/-- After `dma_device_register`, with the engine at the first descriptor. -/
def RxRun.start (ch : Chan) (alloc : Nat → Alloc) : RxRun :=
  { chan := (ch.registerRx alloc).1, engine := 0, live := (ch.registerRx alloc).1.ring.map Slot.dataPointer }

/-- What `buffer_alloc` returns is a null pointer or memory that is not in use. -/
def RxRun.Fresh (s : RxRun) : RxEvent → Prop
  | .read r => r.buffer ≠ 0 → cphysaddr r.buffer ∉ s.live
  | _ => True

/-- There is a new buffer for every packet that is read, or only one descriptor. -/
def RxRun.Supplied (s : RxRun) : RxEvent → Prop
  | .read r => (s.chan.slot s.chan.currDesc).complete = true → r.buffer ≠ 0 ∨ s.chan.ring.length = 1
  | _ => True

instance RxRun.decidableFresh (s : RxRun) : ∀ e, Decidable (s.Fresh e)
  | .read r => inferInstanceAs (Decidable (r.buffer ≠ 0 → cphysaddr r.buffer ∉ s.live))
  | .receive _ => instDecidableTrue
  | .free _ => instDecidableTrue

instance RxRun.decidableSupplied (s : RxRun) : ∀ e, Decidable (s.Supplied e)
  | .read r => inferInstanceAs (Decidable ((s.chan.slot s.chan.currDesc).complete = true →
      r.buffer ≠ 0 ∨ s.chan.ring.length = 1))
  | .receive _ => instDecidableTrue
  | .free _ => instDecidableTrue

/-! ### What holds in every run -/

/-- Every descriptor has a live buffer of its own, which is not with the reader, and no packet is returned twice. -/
structure RxRun.Owns (s : RxRun) : Prop where
  curr : s.chan.currDesc < s.chan.ring.length
  engine : s.engine < s.chan.ring.length
  buffers : s.live.Perm (s.chan.ring.map Slot.dataPointer ++ s.held)
  distinct : s.live.Nodup
  once : (s.received : Multiset (Nat × Nat)) =
    s.returned + tally (fun x => if x.complete then {x.packet} else 0) s.chan.ring

/-! ### What holds while buffers are supplied -/

/-- The `count` descriptors from `currDesc` on have packets, in the order of reception behind those that have been
returned; all others are with the engine, which goes on behind the packets. -/
structure RxRun.InOrder (s : RxRun) (count : Nat) : Prop where
  curr : s.chan.currDesc < s.chan.ring.length
  fits : count ≤ s.chan.ring.length
  engine : s.engine = place s.chan.ring.length s.chan.currDesc count
  unread : ∀ i < count, (s.chan.slot (place s.chan.ring.length s.chan.currDesc i)).complete = true
  empty : ∀ i, count ≤ i → i < s.chan.ring.length →
    (s.chan.slot (place s.chan.ring.length s.chan.currDesc i)).own = true
  order : s.received =
    s.returned ++ (window s.chan.slot s.chan.ring.length s.chan.currDesc count).map Slot.packet

variable {s : RxRun} {count : Nat} {r : Alloc}

theorem rxSlot_own (packetSize : Nat) (r : Alloc) : (rxSlot packetSize r).own = true := readStatus_own _ _

theorem not_complete_of_own {x : Slot} (own : x.own = true) : x.complete = false := by
  rw [Slot.complete, own]
  rfl

theorem done_complete (x : Slot) (received : Option (BitVec 16)) : (x.done received).complete = true := by
  rw [Slot.complete, done_own, done_c]
  rfl

/-! ### Reading -/

theorem read_waits (waiting : (s.chan.slot s.chan.currDesc).complete = false) : s.read r = s := by
  simp [RxRun.read, Chan.readRx, waiting]

theorem read_unsupplied (complete : (s.chan.slot s.chan.currDesc).complete = true) (null : r.buffer = 0) :
    s.read r = { s with chan := s.chan.advance } := by
  simp [RxRun.read, Chan.readRx, complete, null]

theorem read_supplied (complete : (s.chan.slot s.chan.currDesc).complete = true) (supplied : r.buffer ≠ 0) :
    s.read r = { s with
      chan := (s.chan.setSlot s.chan.currDesc (rxSlot s.chan.packetSize r)).advance
      live := cphysaddr r.buffer :: s.live
      held := (s.chan.slot s.chan.currDesc).dataPointer :: s.held
      returned := s.returned ++ [(s.chan.slot s.chan.currDesc).packet] } := by
  simp [RxRun.read, Chan.readRx, complete, supplied]

theorem inOrder_receive (ordered : s.InOrder count) (len : BitVec 16) : ∃ count', (s.receive len).InOrder count' := by
  unfold RxRun.receive
  simp only
  by_cases own : (s.chan.slot s.engine).own = true
  · rw [if_pos own]
    have start := ordered.curr
    have inside : s.engine < s.chan.ring.length := by
      rw [ordered.engine]
      exact place_lt start
    have room : count < s.chan.ring.length := by
      by_contra full
      have all : count = s.chan.ring.length := le_antisymm ordered.fits (not_lt.mp full)
      have first := ordered.unread 0 (by omega)
      rw [place_zero start] at first
      rw [ordered.engine, all, place_self start] at own
      rw [not_complete_of_own own] at first
      cases first
    have size : (s.chan.setSlot s.engine ((s.chan.slot s.engine).done (some len))).ring.length = s.chan.ring.length :=
      List.length_set
    have slots := slot_setSlot inside ((s.chan.slot s.engine).done (some len))
    have here : place s.chan.ring.length s.chan.currDesc count = s.engine := ordered.engine.symm
    refine ⟨count + 1, ?_, ?_, ?_, ?_, ?_, ?_⟩
    · show s.chan.currDesc < _
      rwa [size]
    · rw [size]
      exact room
    · show place s.chan.ring.length s.engine 1 = place _ s.chan.currDesc (count + 1)
      rw [size, ← here, place_next]
    · intro i less
      show (Chan.slot _ (place _ s.chan.currDesc i)).complete = true
      rw [size, slots]
      by_cases newest : i = count
      · rw [newest, here, Function.update_self]
        exact done_complete _ _
      · rw [Function.update_of_ne (by rw [← here]; exact place_ne (by omega) (by omega))]
        exact ordered.unread i (by omega)
    · intro i more less
      rw [size] at less
      show (Chan.slot _ (place _ s.chan.currDesc i)).own = true
      rw [size, slots, Function.update_of_ne (by rw [← here]; exact (place_ne (by omega) (by omega)).symm)]
      exact ordered.empty i (by omega) less
    · show s.received ++ _ = s.returned ++ (window _ _ s.chan.currDesc (count + 1)).map Slot.packet
      rw [size, slots, ← here, window_push room, here, List.map_append, ← List.append_assoc, ← ordered.order]
      rfl
  · rw [if_neg own]
    exact ⟨count, ordered⟩

theorem inOrder_read (ordered : s.InOrder count) (supplied : s.Supplied (.read r)) :
    ∃ count', (s.read r).InOrder count' := by
  cases complete : (s.chan.slot s.chan.currDesc).complete with
  | false =>
    rw [read_waits complete]
    exact ⟨count, ordered⟩
  | true =>
    have start := ordered.curr
    by_cases null : r.buffer = 0
    · -- with one descriptor the read comes back to it
      have single : s.chan.ring.length = 1 := (supplied complete).resolve_left fun present => present null
      have same : s.chan.advance = s.chan := by
        have back : s.chan.advance.currDesc = s.chan.currDesc := by
          rw [advance_curr s.chan start, single, place]
          omega
        cases chan : s.chan
        rw [chan] at back
        simp only [Chan.advance, Chan.mk.injEq, true_and, and_true] at back ⊢
        exact back
      rw [read_unsupplied complete null, same]
      exact ⟨count, ordered⟩
    · obtain ⟨fewer, rfl⟩ : ∃ fewer, count = fewer + 1 := by
        cases count with
        | zero =>
          have own := ordered.empty 0 (le_refl 0) (Nat.zero_lt_of_lt start)
          rw [place_zero start] at own
          rw [not_complete_of_own own] at complete
          cases complete
        | succ fewer => exact ⟨fewer, rfl⟩
      have fits := ordered.fits
      rw [read_supplied complete null]
      have size := stored_length s.chan s.chan.currDesc (rxSlot s.chan.packetSize r)
      have slots : ((s.chan.setSlot s.chan.currDesc (rxSlot s.chan.packetSize r)).advance).slot =
          Function.update s.chan.slot s.chan.currDesc (rxSlot s.chan.packetSize r) := slot_setSlot start _
      have curr := stored_curr start (rxSlot s.chan.packetSize r)
      refine ⟨fewer, ?_, ?_, ?_, ?_, ?_, ?_⟩
      · rw [curr, size]
        exact place_lt start
      · rw [size]
        omega
      · rw [curr, size, place_succ]
        exact ordered.engine
      · intro i less
        rw [curr, size, slots, place_succ, update_start start (by omega)]
        exact ordered.unread (i + 1) (by omega)
      · intro i more less
        rw [size] at less
        rw [curr, size, slots, place_succ]
        by_cases last : i + 1 = s.chan.ring.length
        · rw [last, place_self start, Function.update_self]
          exact rxSlot_own _ _
        · rw [update_start start (by omega)]
          exact ordered.empty (i + 1) (by omega) (by omega)
      · have order := ordered.order
        rw [window_cons start, List.map_cons] at order
        rw [curr, size, slots, window_update_left start fits]
        simp only
        rw [order, List.append_assoc]
        rfl

/-! ### Buffers -/

/-- A descriptor is replaced, and a buffer goes to the reader. -/
theorem pointers_set {ring : List Slot} {j : Nat} {x y : Slot} (found : ring[j]? = some x) (held : List Nat) :
    (y.dataPointer :: (ring.map Slot.dataPointer ++ held)).Perm
      ((ring.set j y).map Slot.dataPointer ++ x.dataPointer :: held) := by
  obtain ⟨inside, same⟩ := List.getElem?_eq_some_iff.mp found
  have mapped : j < (ring.map Slot.dataPointer).length := by rwa [List.length_map]
  have here : (ring.map Slot.dataPointer)[j] = x.dataPointer := by rw [List.getElem_map, same]
  have before := List.getElem_cons_eraseIdx_perm mapped
  have after := List.set_perm_cons_eraseIdx mapped y.dataPointer
  rw [here] at before
  rw [List.map_set]
  calc List.Perm (y.dataPointer :: (ring.map Slot.dataPointer ++ held))
        (y.dataPointer :: (x.dataPointer :: (ring.map Slot.dataPointer).eraseIdx j ++ held)) :=
          (before.symm.append_right held).cons _
    List.Perm _ (y.dataPointer :: ((ring.map Slot.dataPointer).eraseIdx j ++ x.dataPointer :: held)) :=
          List.perm_middle.symm.cons _
    List.Perm _ ((ring.map Slot.dataPointer).set j y.dataPointer ++ x.dataPointer :: held) :=
          after.symm.append_right _

/-- What the descriptor adds to the packets that are in the ring. -/
def Slot.waiting (x : Slot) : Multiset (Nat × Nat) := if x.complete then {x.packet} else 0

theorem owns_receive (owns : s.Owns) (len : BitVec 16) : (s.receive len).Owns := by
  unfold RxRun.receive
  simp only
  by_cases own : (s.chan.slot s.engine).own = true
  · rw [if_pos own]
    have found := slot_found owns.engine
    have size : (s.chan.ring.set s.engine ((s.chan.slot s.engine).done (some len))).length = s.chan.ring.length :=
      List.length_set
    refine ⟨?_, ?_, ?_, owns.distinct, ?_⟩
    · exact lt_of_lt_of_eq owns.curr size.symm
    · exact lt_of_lt_of_eq (place_lt owns.engine) size.symm
    · have same : (s.chan.ring.set s.engine ((s.chan.slot s.engine).done (some len))).map Slot.dataPointer =
          s.chan.ring.map Slot.dataPointer := by
        have mapped : s.engine < (s.chan.ring.map Slot.dataPointer).length := by
          rw [List.length_map]
          exact owns.engine
        have here : (s.chan.ring.map Slot.dataPointer)[s.engine] = (s.chan.slot s.engine).dataPointer := by
          rw [List.getElem_map]
          exact congrArg Slot.dataPointer (List.getElem?_eq_some_iff.mp found).2
        rw [List.map_set, show ((s.chan.slot s.engine).done (some len)).dataPointer = _ from here.symm,
          List.set_getElem_self mapped]
      show s.live.Perm ((s.chan.ring.set s.engine _).map Slot.dataPointer ++ s.held)
      rw [same]
      exact owns.buffers
    · have total := tally_set (f := Slot.waiting) found ((s.chan.slot s.engine).done (some len))
      have before : (s.chan.slot s.engine).waiting = 0 := by
        rw [Slot.waiting, not_complete_of_own own]
        rfl
      have after : ((s.chan.slot s.engine).done (some len)).waiting = {((s.chan.slot s.engine).done (some len)).packet} :=
        if_pos (done_complete _ _)
      rw [before, after, add_zero] at total
      show ((s.received ++ [_] : List (Nat × Nat)) : Multiset (Nat × Nat)) =
        s.returned + tally Slot.waiting (s.chan.ring.set s.engine _)
      rw [total, ← add_assoc, ← show (s.received : Multiset (Nat × Nat)) = s.returned + tally Slot.waiting s.chan.ring
        from owns.once, ← Multiset.coe_add]
      rfl
  · rw [if_neg own]
    exact owns

theorem owns_read (owns : s.Owns) (fresh : s.Fresh (.read r)) : (s.read r).Owns := by
  cases complete : (s.chan.slot s.chan.currDesc).complete with
  | false =>
    rw [read_waits complete]
    exact owns
  | true =>
    by_cases null : r.buffer = 0
    · rw [read_unsupplied complete null]
      refine ⟨?_, owns.engine, owns.buffers, owns.distinct, owns.once⟩
      rw [advance_curr s.chan owns.curr]
      exact place_lt owns.curr
    · rw [read_supplied complete null]
      have found := slot_found owns.curr
      have size : (s.chan.ring.set s.chan.currDesc (rxSlot s.chan.packetSize r)).length = s.chan.ring.length :=
        List.length_set
      refine ⟨?_, lt_of_lt_of_eq owns.engine size.symm, ?_, ?_, ?_⟩
      · show ((s.chan.setSlot s.chan.currDesc (rxSlot s.chan.packetSize r)).advance).currDesc < _
        rw [stored_curr owns.curr]
        exact lt_of_lt_of_eq (place_lt owns.curr) size.symm
      · refine (owns.buffers.cons _).trans ?_
        exact pointers_set (y := rxSlot s.chan.packetSize r) found s.held
      · exact List.nodup_cons.mpr ⟨fresh null, owns.distinct⟩
      · have total := tally_set (f := Slot.waiting) found (rxSlot s.chan.packetSize r)
        have before : (s.chan.slot s.chan.currDesc).waiting = {(s.chan.slot s.chan.currDesc).packet} := if_pos complete
        have after : (rxSlot s.chan.packetSize r).waiting = 0 := by
          rw [Slot.waiting, not_complete_of_own (rxSlot_own _ _)]
          rfl
        rw [before, after, add_zero] at total
        show (s.received : Multiset (Nat × Nat)) =
          ((s.returned ++ [_] : List (Nat × Nat)) : Multiset (Nat × Nat)) +
            tally Slot.waiting (s.chan.ring.set s.chan.currDesc _)
        rw [show (s.received : Multiset (Nat × Nat)) = s.returned + tally Slot.waiting s.chan.ring from owns.once,
          ← total, ← Multiset.coe_add, add_comm (tally _ _), add_assoc]
        rfl

theorem owns_free (owns : s.Owns) (b : Nat) : (s.free b).Owns := by
  unfold RxRun.free
  split
  · rename_i held
    have apart : b ∉ s.chan.ring.map Slot.dataPointer := by
      have distinct := owns.buffers.nodup_iff.mp owns.distinct
      exact fun pointed => (List.nodup_append.mp distinct).2.2 b pointed b held rfl
    refine ⟨owns.curr, owns.engine, ?_, owns.distinct.erase b, owns.once⟩
    show (s.live.erase b).Perm (s.chan.ring.map Slot.dataPointer ++ s.held.erase b)
    rw [← List.erase_append_right _ apart]
    exact owns.buffers.erase b
  · exact owns

theorem owns_step (owns : s.Owns) (e : RxEvent) (fresh : s.Fresh e) : (s.step e).Owns := by
  cases e with
  | receive len => exact owns_receive owns len
  | read r => exact owns_read owns fresh
  | free b => exact owns_free owns b

theorem inOrder_step (ordered : s.InOrder count) (e : RxEvent) (supplied : s.Supplied e) :
    ∃ count', (s.step e).InOrder count' := by
  cases e with
  | receive len => exact inOrder_receive ordered len
  | read r => exact inOrder_read ordered supplied
  | free b =>
    show ∃ count', (s.free b).InOrder count'
    unfold RxRun.free
    split
    · exact ⟨count, ordered.curr, ordered.fits, ordered.engine, ordered.unread, ordered.empty, ordered.order⟩
    · exact ⟨count, ordered⟩

/-! ### After registration -/

/-- The registered ring: every descriptor is with the engine and has the buffer that was allocated for it. -/
theorem fillRing_supplied (packetSize : Nat) {alloc : Nat → Alloc} {ring : List Slot} {j : Nat}
    (supplied : ∀ i < ring.length, (alloc (j + i)).buffer ≠ 0) :
    (∀ x ∈ (fillRing packetSize alloc j ring).1, x.own = true) ∧
      (fillRing packetSize alloc j ring).1.map Slot.dataPointer =
        (List.range' j ring.length).map fun i => cphysaddr (alloc i).buffer := by
  induction ring generalizing j with
  | nil => exact ⟨fun _ member => (nomatch member), rfl⟩
  | cons x rest ih =>
    have present : (alloc j).buffer ≠ 0 := supplied 0 (Nat.zero_lt_succ _)
    obtain ⟨own, pointers⟩ := ih (j := j + 1) fun i less => by
      have next := supplied (i + 1) (Nat.succ_lt_succ less)
      rwa [show j + (i + 1) = j + 1 + i by omega] at next
    rw [fillRing]
    simp only [if_neg present]
    refine ⟨?_, ?_⟩
    · intro y member
      rcases List.mem_cons.mp member with rfl | later
      · exact registerStatus_own _ _
      · exact own y later
    · rw [List.map_cons, pointers, List.length_cons, List.range'_succ, List.map_cons]

/-- The channel is on and at its first descriptor, and `dma_device_register` gets a buffer of its own for every
descriptor. -/
structure Chan.Registers (ch : Chan) (alloc : Nat → Alloc) : Prop where
  on : ch.control = true
  first : ch.currDesc = 0
  some_slot : 0 < ch.ring.length
  supplied : ∀ j < ch.ring.length, (alloc j).buffer ≠ 0
  distinct : ((List.range ch.ring.length).map fun j => cphysaddr (alloc j).buffer).Nodup

theorem start_sound {ch : Chan} {alloc : Nat → Alloc} (registers : ch.Registers alloc) :
    (RxRun.start ch alloc).Owns ∧ (RxRun.start ch alloc).InOrder 0 := by
  have supplied : ∀ i < ch.ring.length, (alloc (0 + i)).buffer ≠ 0 := fun i less => by
    simpa using registers.supplied i less
  obtain ⟨own, pointers⟩ := fillRing_supplied ch.packetSize supplied
  have filled : (ch.registerRx alloc).1 = { ch with ring := (fillRing ch.packetSize alloc 0 ch.ring).1, live := true } := by
    simp [Chan.registerRx, registers.on]
  have size : (fillRing ch.packetSize alloc 0 ch.ring).1.length = ch.ring.length := by
    have lengths := congrArg List.length pointers
    simpa using lengths
  have ring : (RxRun.start ch alloc).chan.ring = (fillRing ch.packetSize alloc 0 ch.ring).1 := by
    rw [RxRun.start, filled]
  have curr : (RxRun.start ch alloc).chan.currDesc = 0 := by
    rw [RxRun.start, filled]
    exact registers.first
  have nonempty : 0 < (RxRun.start ch alloc).chan.ring.length := by
    rw [ring, size]
    exact registers.some_slot
  refine ⟨⟨?_, nonempty, ?_, ?_, ?_⟩, ?_, Nat.zero_le _, ?_, ?_, ?_, rfl⟩
  · rw [curr]
    exact nonempty
  · show List.Perm _ (_ ++ [])
    rw [List.append_nil]
    exact List.Perm.refl _
  · show ((RxRun.start ch alloc).chan.ring.map Slot.dataPointer).Nodup
    rw [ring, pointers, ← List.range_eq_range']
    exact registers.distinct
  · show (0 : Multiset (Nat × Nat)) = 0 + _
    rw [zero_add, ring]
    refine (tally_eq_zero fun x member => ?_).symm
    rw [not_complete_of_own (own x member)]
    rfl
  · rw [curr]
    exact nonempty
  · rw [curr, place_zero nonempty]
    rfl
  · exact fun i less => absurd less (Nat.not_lt_zero i)
  · intro i _ less
    have inside : place (RxRun.start ch alloc).chan.ring.length (RxRun.start ch alloc).chan.currDesc i <
        (RxRun.start ch alloc).chan.ring.length := place_lt (by rw [curr]; exact nonempty)
    have own' : ∀ x ∈ (RxRun.start ch alloc).chan.ring, x.own = true := by
      rw [ring]
      exact own
    exact own' _ (List.mem_of_getElem? (slot_found inside))

/-! ### Runs -/

/-- Buffers stay apart in every run. While a new buffer is there for every packet, the packets are returned in the
order of reception and no descriptor is left behind. -/
theorem receive_ring {ch : Chan} {alloc : Nat → Alloc} (registers : ch.Registers alloc) (events : List RxEvent)
    (fresh : Guarded RxRun.step RxRun.Fresh (.start ch alloc) events) :
    (∀ before after, events = before ++ after → (exec RxRun.step (.start ch alloc) before).Owns) ∧
    (Guarded RxRun.step RxRun.Supplied (.start ch alloc) events →
      ∀ before after, events = before ++ after → ∃ count, (exec RxRun.step (.start ch alloc) before).InOrder count) := by
  obtain ⟨owns, ordered⟩ := start_sound registers
  constructor
  · rintro before after rfl
    have preserved : ∀ (t : RxRun) (e : RxEvent), t.Owns → t.Fresh e → (t.step e).Owns :=
      fun _ e owned ok => owns_step owned e ok
    have kept := guarded_invariant preserved owns (guarded_append.mp fresh).1
    exact kept
  · rintro supplied before after rfl
    have preserved : ∀ (t : RxRun) (e : RxEvent), (∃ count, t.InOrder count) → t.Supplied e →
        ∃ count, (t.step e).InOrder count := by
      rintro t e ⟨count, before⟩ ok
      exact inOrder_step before e ok
    have kept := guarded_invariant preserved ⟨0, ordered⟩ (guarded_append.mp supplied).1
    exact kept

def sampleRxChan : Chan := { control := true, ring := [{}, {}], packetSize := 1536 }

def sampleAlloc (j : Nat) : Alloc := { buffer := 0x80001000 + 0x1000 * j, byteOffset := 0, opt := j }

theorem sample_registers : sampleRxChan.Registers sampleAlloc where
  on := rfl
  first := rfl
  some_slot := by decide
  supplied := fun j _ => by simp [sampleAlloc]
  distinct := by decide

def suppliedRun : List RxEvent :=
  [.receive 64, .receive 65, .read (sampleAlloc 2), .read (sampleAlloc 3), .free 0x1000, .receive 66]

theorem receive_ring_supplied :
    (∀ before after, suppliedRun = before ++ after →
      (exec RxRun.step (.start sampleRxChan sampleAlloc) before).Owns) ∧
    ∀ before after, suppliedRun = before ++ after →
      ∃ count, (exec RxRun.step (.start sampleRxChan sampleAlloc) before).InOrder count := by
  obtain ⟨owns, ordered⟩ := receive_ring sample_registers suppliedRun (by decide)
  exact ⟨owns, ordered (by decide)⟩

def starvedRun : List RxEvent :=
  [.receive 64, .receive 65, .read { buffer := 0, byteOffset := 0, opt := 0 }, .read (sampleAlloc 2),
    .read (sampleAlloc 3)]

/-- A packet that a read leaves behind for want of a buffer is returned after its successors. -/
theorem reception_order_lost : ¬ ∀ (ch : Chan) (alloc : Nat → Alloc) (events : List RxEvent), ch.Registers alloc →
    Guarded RxRun.step RxRun.Fresh (.start ch alloc) events →
    (exec RxRun.step (.start ch alloc) events).returned.Sublist (exec RxRun.step (.start ch alloc) events).received := by
  intro ordered
  have order := ordered sampleRxChan sampleAlloc starvedRun sample_registers (by decide)
  exact absurd order (by decide)

end TwinpassGateway.Dma
