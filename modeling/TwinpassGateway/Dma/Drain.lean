import Mathlib.Data.Fin.VecNotation
import TwinpassGateway.Dma.FairService
import TwinpassGateway.Dma.ReceiveRing

/-!
The tasklet with the rings of its receive channels, when no interrupt comes and the engine is done with nothing more:
whether it comes to an end.
-/

namespace TwinpassGateway.Dma

open Foundation

/-! ### The channels of a device -/

structure ChanMap where
  devName : String
  receives : Bool
  relChanNo : Nat

def defaultDmaMap : Channel → ChanMap :=
  ![⟨"PPE", true, 0⟩, ⟨"PPE", false, 0⟩, ⟨"PPE", true, 1⟩, ⟨"PPE", false, 1⟩, ⟨"PPE", true, 2⟩,
    ⟨"PPE", false, 2⟩, ⟨"PPE", true, 3⟩, ⟨"PPE", false, 3⟩, ⟨"DEU", true, 0⟩, ⟨"DEU", false, 0⟩,
    ⟨"DEU", true, 1⟩, ⟨"DEU", false, 1⟩, ⟨"SPI", true, 0⟩, ⟨"SPI", false, 0⟩, ⟨"SDIO", true, 0⟩,
    ⟨"SDIO", false, 0⟩, ⟨"MCTRL0", true, 0⟩, ⟨"MCTRL0", false, 0⟩, ⟨"MCTRL1", true, 1⟩, ⟨"MCTRL1", false, 1⟩]

/-- `rx_chan` of a device as `map_dma_chan` fills it, one entry for each receive channel of the device. -/
def rxChan (devName : String) : List Channel :=
  (List.finRange 20).filter fun j => (defaultDmaMap j).devName = devName && (defaultDmaMap j).receives

/-- The channel that `dma_device_read` goes to when `ch` is served: `rx_chan[rel_chan_no]` of its device, or a null pointer. -/
def Channel.readChan (ch : Channel) : Option Channel := (rxChan (defaultDmaMap ch).devName)[(defaultDmaMap ch).relChanNo]?

theorem receives_map : ∀ ch : Channel, (defaultDmaMap ch).receives = ch.receives := by decide

/-- MCTRL1 has one receive channel, number 1: the only one that is not found. -/
theorem readChan_eq : ∀ ch : Channel, (defaultDmaMap ch).receives = true → ch.readChan = if ch = 18 then none else some ch := by decide

/-! ### The machine -/

/-- What the callback of a device meets and does: the buffer that `dma_device_read` gets, and the channels that it switches
off. -/
structure Callback where
  alloc : Alloc
  disabled : U32 := 0

structure Work where
  tasklet : Interrupts
  /-- The receive channels. -/
  chans : Channel → Chan
  /-- `dma_device_read` has followed a null pointer. -/
  crashed : Bool := false

/-- The condition of `rx_chan_intr_handler`; a build without the D2 driver leaves packets of 1536 bytes alone. -/
def Slot.readable (d2 : Bool) (x : Slot) : Bool := x.complete && (d2 || decide (x.dataLength < 1536))

def Chan.current (c : Chan) : Slot := c.slot c.currDesc

namespace Work

def around (d2 : Bool) (w : Work) (call : Callback) (ch : Channel) : Surroundings where
  complete := (w.chans ch).current.readable d2
  own := (w.chans ch).current.own
  disabled := call.disabled

/-- The next statement; the callback of a receive channel reads one packet, and the kernel starts the tasklet when it is
scheduled. -/
def step (d2 : Bool) (w : Work) (call : Callback) : Work :=
  if w.crashed then w
  else
    match w.tasklet.point with
    | .idle => { w with tasklet := w.tasklet.step .start }
    | .rx ch =>
      if (w.chans ch).current.readable d2 then
        match ch.readChan with
        | some j =>
          { w with
            tasklet := w.tasklet.next (w.around d2 call ch)
            chans := Function.update w.chans j ((w.chans j).readRx call.alloc).2 }
        | none => { w with crashed := true }
      else { w with tasklet := w.tasklet.next (w.around d2 call ch) }
    | _ => { w with tasklet := w.tasklet.next { complete := false, own := false, disabled := call.disabled } }

end Work

/-- Going on from the current descriptor, the first that is not read is with the engine. -/
def Chan.Endable (d2 : Bool) (c : Chan) : Prop :=
  ∀ k, (∀ j < k, (Chan.advance^[j] c).current.readable d2 = true) →
    (Chan.advance^[k] c).current.readable d2 = true ∨ (Chan.advance^[k] c).current.own = true

/-- The channel comes to a descriptor of the engine, and if it is not found among those of its device there is nothing to
read before. -/
def Work.Ends (d2 : Bool) (w : Work) (ch : Channel) : Prop :=
  (w.chans ch).Endable d2 ∧ (ch.readChan = none → (w.chans ch).current.readable d2 = false)

/-- Every receive channel that is pending comes to an end. -/
def Work.Endable (d2 : Bool) (w : Work) : Prop :=
  ∀ ch : Channel, ch.receives = true → Pending w.tasklet.status ch → w.Ends d2 ch

/-! ### Reading a packet -/

variable {d2 : Bool} {c : Chan}

theorem advance_ring (c : Chan) (k : Nat) : (Chan.advance^[k] c).ring = c.ring := by
  induction k with
  | zero => rfl
  | succ k ih =>
    rw [Function.iterate_succ_apply']
    exact ih

theorem readable_complete {x : Slot} (readable : x.readable d2 = true) : x.complete = true := by
  unfold Slot.readable at readable
  exact (Bool.and_eq_true_iff.mp readable).1

theorem not_readable_of_own {x : Slot} (own : x.own = true) : x.readable d2 = false := by
  unfold Slot.readable
  rw [not_complete_of_own own]
  rfl

/-- The descriptor that is read is in the ring. -/
theorem current_inside (readable : c.current.readable d2 = true) : c.currDesc < c.ring.length := by
  by_contra outside
  have complete := readable_complete readable
  unfold Chan.current Chan.slot at complete
  rw [List.getD_eq_getElem?_getD, List.getElem?_eq_none (not_lt.mp outside), Option.getD_none] at complete
  cases complete

theorem readRx_readable (readable : c.current.readable d2 = true) {r : Alloc} (supplied : r.buffer ≠ 0) :
    (c.readRx r).2 = (c.setSlot c.currDesc (rxSlot c.packetSize r)).advance := by
  have complete : (c.slot c.currDesc).complete = true := readable_complete readable
  simp [Chan.readRx, complete, supplied]

theorem advance_setSlot (c : Chan) (i : Nat) (x : Slot) (k : Nat) :
    Chan.advance^[k] (c.setSlot i x) = (Chan.advance^[k] c).setSlot i x := by
  induction k with
  | zero => rfl
  | succ k ih =>
    rw [Function.iterate_succ_apply', Function.iterate_succ_apply', ih]
    unfold Chan.advance Chan.setSlot
    simp

/-- A descriptor after one is read: that one is with the engine now, and the others are as they were. -/
theorem current_readRx (readable : c.current.readable d2 = true) {r : Alloc} (supplied : r.buffer ≠ 0) (k : Nat) :
    (Chan.advance^[k] (c.readRx r).2).current =
      if (Chan.advance^[k + 1] c).currDesc = c.currDesc then rxSlot c.packetSize r else (Chan.advance^[k + 1] c).current := by
  have inside := current_inside readable
  rw [readRx_readable readable supplied, ← Function.iterate_succ_apply, advance_setSlot]
  have place : c.currDesc < (Chan.advance^[k + 1] c).ring.length := by rwa [advance_ring]
  unfold Chan.current
  show ((Chan.advance^[k + 1] c).setSlot c.currDesc _).slot (Chan.advance^[k + 1] c).currDesc = _
  rw [slot_setSlot place]
  by_cases same : (Chan.advance^[k + 1] c).currDesc = c.currDesc
  · rw [same, Function.update_self, if_pos rfl]
  · rw [Function.update_of_ne same, if_neg same]

/-- Back at the current descriptor the channel is as it was. -/
theorem advance_around {k : Nat} (same : (Chan.advance^[k] c).currDesc = c.currDesc) : Chan.advance^[k] c = c := by
  have moved : Chan.advance^[k] c = { c with currDesc := (Chan.advance^[k] c).currDesc } := by
    clear same
    induction k with
    | zero => rfl
    | succ k ih =>
      rw [Function.iterate_succ_apply', ih]
      rfl
  rw [moved, same]

/-- Reading a packet does not change whether the channel comes to a descriptor of the engine. -/
theorem endable_readRx (readable : c.current.readable d2 = true) {r : Alloc} (supplied : r.buffer ≠ 0) :
    (c.readRx r).2.Endable d2 ↔ c.Endable d2 := by
  have here := current_readRx readable supplied
  constructor
  · intro endable k before
    cases k with
    | zero => exact .inl readable
    | succ k =>
      by_cases around : ∃ j ≤ k, (Chan.advance^[j + 1] c).currDesc = c.currDesc
      · obtain ⟨j, below, same⟩ := around
        rw [show k + 1 = (k - j) + (j + 1) by omega, Function.iterate_add_apply, advance_around same]
        exact .inl (before (k - j) (by omega))
      · have shifted (j : Nat) (below : j ≤ k) :
            (Chan.advance^[j] (c.readRx r).2).current = (Chan.advance^[j + 1] c).current := by
          rw [here j, if_neg fun same => around ⟨j, below, same⟩]
        rw [← shifted k le_rfl]
        refine endable k fun j below => ?_
        rw [shifted j below.le]
        exact before (j + 1) (by omega)
  · intro endable k before
    by_cases around : (Chan.advance^[k + 1] c).currDesc = c.currDesc
    · rw [here k, if_pos around]
      exact .inr (rxSlot_own _ _)
    · rw [here k, if_neg around]
      refine endable (k + 1) fun j below => ?_
      cases j with
      | zero => exact readable
      | succ j =>
        have read := before j (by omega)
        rw [here j] at read
        split at read
        · rw [not_readable_of_own (rxSlot_own _ _)] at read
          cases read
        · exact read

/-! ### Pending bits -/

def OnlyChannels (status : U32) : Prop := ∀ i, 20 ≤ i → status.getLsbD i = false

variable {status : U32} {ch j : Channel}

theorem some_pending (only : OnlyChannels status) (left : status ≠ 0) : ∃ ch, Pending status ch := by
  by_contra none_pending
  refine left (BitVec.eq_of_getLsbD_eq fun i _ => ?_)
  show status.getLsbD i = (0#32).getLsbD i
  rw [BitVec.getLsbD_zero]
  by_cases inside : i < 20
  · by_contra set
    refine none_pending ⟨⟨i, inside⟩, ?_⟩
    unfold Pending
    simpa using set
  · exact only i (not_lt.mp inside)

theorem bit_getLsbD (ch : Channel) (i : Nat) : ch.bit.getLsbD i = decide (i = ch.val) := by
  unfold Channel.bit
  have below := ch.isLt
  simp only [BitVec.getLsbD_shiftLeft, BitVec.getLsbD_one]
  by_cases same : i = ch.val
  · subst same
    simp
    omega
  · simp [same]
    omega

theorem pending_clear : Pending (status &&& ~~~ch.bit) j ↔ Pending status j ∧ j ≠ ch := by
  unfold Pending
  have below := j.isLt
  rw [BitVec.getLsbD_and, BitVec.getLsbD_not, bit_getLsbD, Fin.ne_iff_vne]
  simp
  omega

theorem pending_and {mask : U32} (pending : Pending (status &&& mask) j) : Pending status j := by
  unfold Pending at pending ⊢
  rw [BitVec.getLsbD_and, Bool.and_eq_true] at pending
  exact pending.1

theorem onlyChannels_and (only : OnlyChannels status) (mask : U32) : OnlyChannels (status &&& mask) := by
  intro i above
  rw [BitVec.getLsbD_and, only i above, Bool.false_and]

theorem onlyChannels_bit (only : OnlyChannels status) (ch : Channel) : OnlyChannels (status ||| ch.bit) := by
  intro i above
  have below := ch.isLt
  rw [BitVec.getLsbD_or, only i above, bit_getLsbD, Bool.false_or]
  exact decide_eq_false (by omega)

variable {s : Interrupts} {around : Surroundings}

/-- A statement of the tasklet only clears bits. -/
theorem next_status (s : Interrupts) (around : Surroundings) : ∃ mask, (s.next around).status = s.status &&& mask := by
  have kept : s.status = s.status &&& BitVec.allOnes 32 := BitVec.and_allOnes.symm
  unfold Interrupts.next Interrupts.selectNext
  cases s.point with
  | idle | rxWeight ch | refill => exact ⟨_, kept⟩
  | loop | budget | leave =>
    dsimp only
    split <;> exact ⟨_, kept⟩
  | select i chan weight =>
    dsimp only
    split
    · split <;> exact ⟨_, kept⟩
    · cases chan <;> exact ⟨_, kept⟩
  | rx ch =>
    dsimp only
    split
    · exact ⟨_, rfl⟩
    · split
      · exact ⟨_, rfl⟩
      · exact ⟨_, kept⟩
  | tx ch | txHandler ch => exact ⟨_, rfl⟩

theorem onlyChannels_step (only : OnlyChannels s.status) (e : InterruptEvent) : OnlyChannels (s.step e).status := by
  cases e with
  | interrupt ch => exact onlyChannels_bit only ch
  | start =>
    unfold Interrupts.step
    dsimp only
    split <;> exact only
  | disable ch =>
    unfold Interrupts.step
    dsimp only
    split
    · exact onlyChannels_and only _
    · exact only
  | run around =>
    obtain ⟨mask, cleared⟩ := next_status s around
    show OnlyChannels (s.next around).status
    rw [cleared]
    exact onlyChannels_and only mask

structure Interrupts.Served (s : Interrupts) (defaultWeight : Channel → Int) : Prop where
  ordered : s.Ordered defaultWeight
  only : OnlyChannels s.status

theorem served_exec {defaultWeight : Channel → Int} (served : s.Served defaultWeight) (events : List InterruptEvent) :
    (exec Interrupts.step s events).Served defaultWeight := by
  induction events generalizing s with
  | nil => exact served
  | cons e rest ih => exact ih ⟨ordered_step served.ordered e, onlyChannels_step served.only e⟩

theorem served_start (defaultWeight : Channel → Int) :
    Interrupts.Served { weight := defaultWeight, defaultWeight } defaultWeight :=
  ⟨ordered_start defaultWeight, fun _ _ => BitVec.getLsbD_zero⟩

/-! ### The measure -/

def Interrupts.Choosable (s : Interrupts) : Prop :=
  match s.point with
  | .select i chan _ => chan ≠ none ∨ ∃ j : Channel, i ≤ j.val ∧ Pending s.status j ∧ 0 < s.weight j
  | .rx _ | .tx _ => True
  | .refill | .rxWeight _ | .txHandler _ => False
  | .loop | .budget | .idle | .leave => ∃ j : Channel, Pending s.status j ∧ 0 < s.weight j

/-- How many statements are left before the next service, if the selection finds a channel. -/
def Interrupts.distance (s : Interrupts) : Nat :=
  match s.point with
  | .rx _ | .tx _ => 0
  | .refill => 5
  | .select i _ _ => 10 + (20 - i)
  | .budget => if s.budget < 0 then 60 else 40
  | .loop => if s.budget < 0 then 61 else 41
  | .idle => 55
  | .leave => 56
  | .rxWeight _ | .txHandler _ => 70

open Classical in
noncomputable def Interrupts.way (s : Interrupts) : Nat := s.distance + if s.Choosable then 0 else 100

def Work.load (w : Work) (ch : Channel) : Nat :=
  (if w.tasklet.status.getLsbD ch.val then 1 else 0) + (w.chans ch).ring.countP Slot.complete

noncomputable def Work.measure (w : Work) : Nat := 200 * (∑ ch, w.load ch) + w.tasklet.way

theorem way_le (s : Interrupts) : s.way ≤ 170 := by
  have distance : s.distance ≤ 70 := by
    unfold Interrupts.distance
    split <;> try split
    all_goals omega
  unfold Interrupts.way
  split <;> omega

theorem way_lt {t : Interrupts} (kept : s.Choosable → t.Choosable) (nearer : t.distance < s.distance) : t.way < s.way := by
  unfold Interrupts.way
  by_cases choosable : s.Choosable
  · rw [if_pos choosable, if_pos (kept choosable)]
    omega
  · rw [if_neg choosable]
    split <;> omega

theorem choosable_selectNext {i : Channel} {chan : Option Channel} {weight : Int} (start : chan = none → weight = 0)
    (choosable : chan ≠ none ∨ ∃ j : Channel, i.val ≤ j.val ∧ Pending s.status j ∧ 0 < s.weight j) :
    (s.selectNext i chan weight).Choosable := by
  unfold Interrupts.selectNext
  by_cases better : s.status.getLsbD i.val = true ∧ 0 < s.weight i ∧ weight < s.weight i
  · rw [if_pos better]
    exact .inl (Option.some_ne_none _)
  · rw [if_neg better]
    by_cases chosen : chan = none
    · obtain ⟨j, above, pending, positive⟩ := choosable.resolve_left (not_not.mpr chosen)
      refine .inr ⟨j, Nat.lt_of_le_of_ne above fun here => better ?_, pending, positive⟩
      obtain rfl : i = j := Fin.ext here
      rw [start chosen]
      exact ⟨pending, positive, positive⟩
    · exact .inl chosen

theorem choosable_serving {ch : Channel} (serving : s.point = .rx ch ∨ s.point = .tx ch) : s.Choosable ∧ s.distance = 0 := by
  unfold Interrupts.Choosable Interrupts.distance
  obtain point | point := serving
  · rw [point]
    exact ⟨trivial, rfl⟩
  · rw [point]
    exact ⟨trivial, rfl⟩

/-- The selection comes nearer to the service, one channel after another. -/
theorem way_select (selected : s.Selected) {i : Nat} {chan : Option Channel} {weight : Int} (around : Surroundings)
    (point : s.point = .select i chan weight) : (s.next around).way < s.way := by
  unfold Interrupts.Selected at selected
  rw [point] at selected
  by_cases inside : i < 20
  · have after : s.next around = s.selectNext ⟨i, inside⟩ chan weight := by
      unfold Interrupts.next
      rw [point]
      exact dif_pos inside
    rw [after]
    have point_after : ∃ chan' weight', (s.selectNext ⟨i, inside⟩ chan weight).point = .select (i + 1) chan' weight' :=
      (selectNext_point s ⟨i, inside⟩ chan weight).2
    apply way_lt
    · intro choosable
      unfold Interrupts.Choosable at choosable
      rw [point] at choosable
      exact @choosable_selectNext s ⟨i, inside⟩ chan weight selected.start choosable
    · obtain ⟨chan', weight', point_after⟩ := point_after
      simp only [Interrupts.distance, point, point_after]
      omega
  · cases chan with
    | none =>
      have after : s.next around = { s with point := .refill } := by
        unfold Interrupts.next
        rw [point]
        exact dif_neg inside
      rw [after]
      apply way_lt
      · simp only [Interrupts.Choosable, point]
        rintro (chosen | ⟨j, above, -, -⟩)
        · exact chosen rfl
        · omega
      · simp only [Interrupts.distance, point]
        omega
    | some ch =>
      have after : s.next around = { s with point := if ch.receives then .rx ch else .tx ch } := by
        unfold Interrupts.next
        rw [point]
        exact dif_neg inside
      have serving : (s.next around).point = .rx ch ∨ (s.next around).point = .tx ch := by
        rw [after]
        dsimp only
        split
        · exact .inl rfl
        · exact .inr rfl
      obtain ⟨choosable, near⟩ := choosable_serving serving
      refine way_lt (fun _ => choosable) ?_
      rw [near]
      simp only [Interrupts.distance, point]
      omega

theorem way_refill {defaultWeight : Channel → Int} (served : s.Served defaultWeight) (positive : ∀ ch, 0 < defaultWeight ch)
    (left : s.status ≠ 0) (around : Surroundings) (point : s.point = .refill) : (s.next around).way < s.way := by
  have after : s.next around = { s with weight := s.defaultWeight, point := .loop } := by
    unfold Interrupts.next
    rw [point]
  obtain ⟨j, pending⟩ := some_pending served.only left
  have choosable : (s.next around).Choosable := by
    rw [after]
    refine ⟨j, pending, ?_⟩
    dsimp only
    rw [served.ordered.capped.default]
    exact positive j
  have unchoosable : ¬ s.Choosable := by
    simp only [Interrupts.Choosable, point, not_false_eq_true]
  unfold Interrupts.way
  rw [if_pos choosable, if_neg unchoosable, after]
  simp only [Interrupts.distance, point]
  split <;> omega

/-- Where nothing is served, the next statement brings the tasklet nearer to a service. -/
theorem way_next {defaultWeight : Channel → Int} (served : s.Served defaultWeight) (positive : ∀ ch, 0 < defaultWeight ch)
    (left : s.status ≠ 0) (around : Surroundings) (running : s.point ≠ .idle)
    (elsewhere : ∀ ch, s.point ≠ .rx ch ∧ s.point ≠ .tx ch) : (s.next around).way < s.way := by
  cases point : s.point with
  | idle => exact absurd point running
  | rx ch => exact absurd point (elsewhere ch).1
  | tx ch => exact absurd point (elsewhere ch).2
  | loop =>
    have after : s.next around = { s with point := .budget } := by
      unfold Interrupts.next
      rw [point]
      exact if_pos left
    rw [after]
    apply way_lt
    · simp only [Interrupts.Choosable, point]
      exact id
    · simp only [Interrupts.distance, point]
      split <;> omega
  | leave =>
    have after : s.next around = { s with inProcess := true, scheduled := true, point := .idle } := by
      unfold Interrupts.next
      rw [point]
      exact if_pos left
    rw [after]
    apply way_lt
    · simp only [Interrupts.Choosable, point]
      exact id
    · simp only [Interrupts.distance, point]
      omega
  | budget =>
    by_cases spent : s.budget < 0
    · have after : s.next around = { s with budget := s.budget - 1, scheduled := true, point := .idle } := by
        unfold Interrupts.next
        rw [point]
        exact if_pos spent
      rw [after]
      apply way_lt
      · simp only [Interrupts.Choosable, point]
        exact id
      · simp only [Interrupts.distance, point, if_pos spent]
        omega
    · have after : s.next around =
          { s with budget := s.budget - 1, turns := s.turns + 1, seen := s.status, point := .select 0 none 0 } := by
        unfold Interrupts.next
        rw [point]
        exact if_neg spent
      rw [after]
      apply way_lt
      · simp only [Interrupts.Choosable, point]
        rintro ⟨j, pending, weight⟩
        exact .inr ⟨j, Nat.zero_le _, pending, weight⟩
      · simp only [Interrupts.distance, point, if_neg spent]
        omega
  | select i chan weight => exact way_select served.ordered.sound.selected around point
  | refill => exact way_refill served positive left around point
  | rxWeight ch | txHandler ch =>
    have unchoosable : ¬ s.Choosable := by
      simp only [Interrupts.Choosable, point, not_false_eq_true]
    apply way_lt fun choosable => absurd choosable unchoosable
    simp only [Interrupts.distance, Interrupts.next, point]
    split <;> omega

/-! ### Draining -/

variable {w : Work} {call : Callback} {defaultWeight : Channel → Int}

structure Work.Drains (d2 : Bool) (defaultWeight : Channel → Int) (w : Work) : Prop where
  served : w.tasklet.Served defaultWeight
  alive : w.crashed = false
  endable : w.Endable d2

theorem step_crashed (crashed : w.crashed = true) (call : Callback) : w.step d2 call = w := by
  unfold Work.step
  exact if_pos crashed

theorem served_rx (served : w.tasklet.Served defaultWeight) {ch : Channel} (point : w.tasklet.point = .rx ch) :
    ch.receives = true := by
  have selected := served.ordered.sound.selected
  unfold Interrupts.Selected at selected
  rw [point] at selected
  exact selected.1

/-- What a step can be: the kernel starts the tasklet, a packet is read, a null pointer is followed, or a statement that
leaves the rings alone. -/
theorem step_cases (served : w.tasklet.Served defaultWeight) (alive : w.crashed = false) (d2 : Bool) (call : Callback) :
    (w.tasklet.point = .idle ∧ w.step d2 call = { w with tasklet := w.tasklet.step .start }) ∨
    (∃ ch, w.tasklet.point = .rx ch ∧ (w.chans ch).current.readable d2 = true ∧ ch.readChan = some ch ∧
      w.step d2 call =
        { w with
          tasklet := w.tasklet.next (w.around d2 call ch)
          chans := Function.update w.chans ch ((w.chans ch).readRx call.alloc).2 }) ∨
    (∃ ch, w.tasklet.point = .rx ch ∧ (w.chans ch).current.readable d2 = true ∧ ch.readChan = none ∧
      w.step d2 call = { w with crashed := true }) ∨
    ∃ around, w.tasklet.point ≠ .idle ∧ around.disabled = call.disabled ∧
      (∀ ch, w.tasklet.point = .rx ch → (w.chans ch).current.readable d2 = false ∧ around = w.around d2 call ch) ∧
      w.step d2 call = { w with tasklet := w.tasklet.next around } := by
  have crashed : ¬ w.crashed = true := fun crashed => absurd (alive.symm.trans crashed) Bool.false_ne_true
  unfold Work.step
  rw [if_neg crashed]
  cases point : w.tasklet.point with
  | idle => exact .inl ⟨rfl, rfl⟩
  | rx ch =>
    have found := readChan_eq ch ((receives_map ch).trans (served_rx served point))
    dsimp only
    by_cases readable : (w.chans ch).current.readable d2 = true
    · rw [if_pos readable]
      by_cases last : ch = 18
      · rw [if_pos last] at found
        rw [found]
        exact .inr (.inr (.inl ⟨ch, rfl, readable, found, rfl⟩))
      · rw [if_neg last] at found
        rw [found]
        exact .inr (.inl ⟨ch, rfl, readable, found, rfl⟩)
    · rw [if_neg readable]
      refine .inr (.inr (.inr ⟨w.around d2 call ch, TaskletAt.noConfusion, rfl, fun j same => ?_, rfl⟩))
      cases same
      exact ⟨Bool.not_eq_true _ ▸ readable, rfl⟩
  | _ => exact .inr (.inr (.inr ⟨_, TaskletAt.noConfusion, rfl, fun _ same => TaskletAt.noConfusion same, rfl⟩))

theorem served_step (served : w.tasklet.Served defaultWeight) (call : Callback) :
    (w.step d2 call).tasklet.Served defaultWeight := by
  by_cases crashed : w.crashed = true
  · rw [step_crashed crashed]
    exact served
  · obtain ⟨-, after⟩ | ⟨ch, -, -, -, after⟩ | ⟨ch, -, -, -, after⟩ | ⟨around, -, -, -, after⟩ :=
      step_cases served (Bool.not_eq_true _ ▸ crashed) d2 call
    · rw [after]
      exact served_exec served [.start]
    · rw [after]
      exact served_exec served [.run _]
    · rw [after]
      exact served
    · rw [after]
      exact served_exec served [.run _]

theorem load_le {w' : Work} (status : ∀ ch, Pending w'.tasklet.status ch → Pending w.tasklet.status ch) (ch : Channel)
    (packets : (w'.chans ch).ring.countP Slot.complete ≤ (w.chans ch).ring.countP Slot.complete) : w'.load ch ≤ w.load ch := by
  unfold Work.load
  have bits : (if w'.tasklet.status.getLsbD ch.val then 1 else 0) ≤ if w.tasklet.status.getLsbD ch.val then 1 else 0 := by
    split
    · rename_i pending
      have before : w.tasklet.status.getLsbD ch.val = true := status ch pending
      rw [if_pos before]
    · exact Nat.zero_le _
  exact Nat.add_le_add bits packets

theorem load_cleared {w' : Work} (chans : w'.chans = w.chans) {ch : Channel} (pending : Pending w.tasklet.status ch)
    (status : w'.tasklet.status = w.tasklet.status &&& ~~~ch.bit) : ∑ j, w'.load j < ∑ j, w.load j := by
  have fewer (j : Channel) (left : Pending w'.tasklet.status j) : Pending w.tasklet.status j ∧ j ≠ ch := by
    rw [status] at left
    exact pending_clear.mp left
  refine Finset.sum_lt_sum (fun j _ => load_le (fun j left => (fewer j left).1) j (by rw [chans])) ⟨ch, Finset.mem_univ ch, ?_⟩
  have before : w.tasklet.status.getLsbD ch.val = true := pending
  have after : ¬ w'.tasklet.status.getLsbD ch.val = true := fun left => (fewer ch left).2 rfl
  unfold Work.load
  rw [if_pos before, if_neg after, chans]
  omega

theorem countP_readRx (readable : c.current.readable d2 = true) {r : Alloc} (supplied : r.buffer ≠ 0) :
    (c.readRx r).2.ring.countP Slot.complete < c.ring.countP Slot.complete := by
  have inside := current_inside readable
  have complete := readable_complete readable
  have incomplete := not_complete_of_own (rxSlot_own c.packetSize r)
  rw [readRx_readable readable supplied]
  show (c.ring.set c.currDesc (rxSlot c.packetSize r)).countP Slot.complete < _
  have found : c.ring[c.currDesc] = c.current := by
    unfold Chan.current Chan.slot
    rw [List.getD_eq_getElem?_getD, List.getElem?_eq_getElem inside, Option.getD_some]
  have some_complete : 0 < c.ring.countP Slot.complete :=
    List.countP_pos_iff.mpr ⟨_, List.getElem_mem inside, by rw [found]; exact complete⟩
  rw [List.countP_set inside, found, complete, incomplete, if_pos rfl, if_neg nofun]
  omega

/-- A service takes a pending bit or a packet away. -/
theorem load_serving (drains : w.Drains d2 defaultWeight) (supplied : call.alloc.buffer ≠ 0)
    (serving : ∃ ch, w.tasklet.point = .rx ch ∨ w.tasklet.point = .tx ch) :
    ∑ ch, (w.step d2 call).load ch < ∑ ch, w.load ch := by
  obtain ⟨here, serving⟩ := serving
  have serves := serves_of_selected drains.served.ordered.sound.selected serving
  obtain ⟨idle, -⟩ | ⟨ch, point, readable, -, after⟩ | ⟨ch, point, readable, null, -⟩ | ⟨around, -, -, unread, after⟩ :=
    step_cases drains.served drains.alive d2 call
  · rw [idle] at serving
    exact serving.elim TaskletAt.noConfusion TaskletAt.noConfusion
  · have complete : (w.around d2 call ch).complete = true := readable
    have next : w.tasklet.next (w.around d2 call ch) =
        { w.tasklet with status := w.tasklet.status &&& ~~~call.disabled, point := .rxWeight ch } := by
      unfold Interrupts.next
      rw [point]
      dsimp only
      rw [if_pos complete]
      rfl
    have status (j : Channel) (left : Pending (w.step d2 call).tasklet.status j) : Pending w.tasklet.status j := by
      rw [after, next] at left
      exact pending_and left
    have fewer := countP_readRx readable supplied
    have packets (j : Channel) : ((w.step d2 call).chans j).ring.countP Slot.complete ≤
        (w.chans j).ring.countP Slot.complete := by
      rw [after]
      dsimp only
      by_cases same : j = ch
      · rw [same, Function.update_self]
        exact fewer.le
      · rw [Function.update_of_ne same]
    refine Finset.sum_lt_sum (fun j _ => load_le status j (packets j)) ⟨ch, Finset.mem_univ ch, ?_⟩
    have read : ((w.step d2 call).chans ch).ring.countP Slot.complete < (w.chans ch).ring.countP Slot.complete := by
      rw [after]
      dsimp only
      rwa [Function.update_self]
    have bits := @load_le w { w.step d2 call with chans := w.chans } status ch le_rfl
    unfold Work.load at bits ⊢
    dsimp only at bits
    omega
  · have pending := (serves_of_selected drains.served.ordered.sound.selected (.inl point)).pending
    have unread := (drains.endable ch (served_rx drains.served point) pending).2 null
    exact absurd (unread.symm.trans readable) Bool.false_ne_true
  · obtain point | point := serving
    · obtain ⟨unreadable, rfl⟩ := unread here point
      have ends := (drains.endable here (served_rx drains.served point) serves.pending).1
      have own : (w.chans here).current.own = true :=
        (ends 0 fun j below => absurd below (Nat.not_lt_zero j)).resolve_left (Bool.not_eq_true _ ▸ unreadable)
      have next : w.tasklet.next (w.around d2 call here) =
          { w.tasklet with status := w.tasklet.status &&& ~~~here.bit, point := .loop } := by
        unfold Interrupts.next Work.around
        rw [point]
        dsimp only
        rw [if_neg (ne_true_of_eq_false unreadable), if_pos own]
      exact load_cleared (by rw [after]) serves.pending (by rw [after, next])
    · have next : w.tasklet.next around =
          { w.tasklet with status := w.tasklet.status &&& ~~~here.bit, point := .txHandler here } := by
        unfold Interrupts.next
        rw [point]
      exact load_cleared (by rw [after]) serves.pending (by rw [after, next])

theorem load_kept {w' : Work} (chans : w'.chans = w.chans) (status : ∃ mask, w'.tasklet.status = w.tasklet.status &&& mask) :
    ∑ ch, w'.load ch ≤ ∑ ch, w.load ch := by
  obtain ⟨mask, cleared⟩ := status
  refine Finset.sum_le_sum fun ch _ => load_le (fun j left => ?_) ch (by rw [chans])
  rw [cleared] at left
  exact pending_and left

theorem distance_started (point : s.point = .loop) (budget : s.budget = dmaIntBudget) : s.distance = 41 := by
  unfold Interrupts.distance
  rw [point, budget]
  rfl

/-- Every statement lowers the measure as long as something is pending. -/
theorem measure_step (drains : w.Drains d2 defaultWeight) (positive : ∀ ch, 0 < defaultWeight ch)
    (supplied : call.alloc.buffer ≠ 0) (left : w.tasklet.status ≠ 0) : (w.step d2 call).measure < w.measure := by
  unfold Work.measure
  by_cases serving : ∃ ch, w.tasklet.point = .rx ch ∨ w.tasklet.point = .tx ch
  · have load := load_serving drains supplied serving
    have way := way_le (w.step d2 call).tasklet
    omega
  · have elsewhere (ch : Channel) : w.tasklet.point ≠ .rx ch ∧ w.tasklet.point ≠ .tx ch :=
      ⟨fun point => serving ⟨ch, .inl point⟩, fun point => serving ⟨ch, .inr point⟩⟩
    obtain ⟨idle, after⟩ | ⟨ch, point, -⟩ | ⟨ch, point, -⟩ | ⟨around, running, -, -, after⟩ :=
      step_cases drains.served drains.alive d2 call
    · have scheduled : w.tasklet.scheduled = true := by
        have awake := drains.served.ordered.sound.awake
        exact (awake.woken (awake.pending left)).resolve_right fun running => running idle
      have started : w.tasklet.step .start =
          { w.tasklet with scheduled := false, budget := dmaIntBudget, turns := 0, point := .loop } := by
        unfold Interrupts.step
        rw [idle, scheduled]
      have load : ∑ ch, (w.step d2 call).load ch ≤ ∑ ch, w.load ch :=
        load_kept (by rw [after]) ⟨BitVec.allOnes 32, by rw [after, started]; exact BitVec.and_allOnes.symm⟩
      have way : (w.step d2 call).tasklet.way < w.tasklet.way := by
        rw [after, started]
        apply way_lt
        · simp only [Interrupts.Choosable, idle]
          exact id
        · have far : w.tasklet.distance = 55 := by
            simp only [Interrupts.distance, idle]
          rw [far, distance_started rfl rfl]
          decide
      omega
    · exact absurd point (elsewhere ch).1
    · exact absurd point (elsewhere ch).1
    · have load : ∑ ch, (w.step d2 call).load ch ≤ ∑ ch, w.load ch :=
        load_kept (by rw [after]) (by rw [after]; exact next_status _ _)
      have way : (w.step d2 call).tasklet.way < w.tasklet.way := by
        rw [after]
        exact way_next drains.served positive left _ running elsewhere
      omega

/-- Whether a channel comes to an end does not change. -/
theorem step_ends (served : w.tasklet.Served defaultWeight) (supplied : call.alloc.buffer ≠ 0) (ch : Channel) :
    (w.step d2 call).Ends d2 ch ↔ w.Ends d2 ch := by
  by_cases crashed : w.crashed = true
  · rw [step_crashed crashed]
  · obtain ⟨-, after⟩ | ⟨j, -, readable, found, after⟩ | ⟨j, -, -, -, after⟩ | ⟨around, -, -, -, after⟩ :=
      step_cases served (Bool.not_eq_true _ ▸ crashed) d2 call
    · rw [after]
      rfl
    · rw [after]
      unfold Work.Ends
      dsimp only
      by_cases same : ch = j
      · subst same
        rw [Function.update_self, endable_readRx readable supplied, found]
        simp
      · rw [Function.update_of_ne same]
    · rw [after]
      rfl
    · rw [after]
      rfl

theorem step_pending (served : w.tasklet.Served defaultWeight) {ch : Channel}
    (left : Pending (w.step d2 call).tasklet.status ch) : Pending w.tasklet.status ch := by
  by_cases crashed : w.crashed = true
  · rwa [step_crashed crashed] at left
  · have kept (around : Surroundings) (left : Pending (w.tasklet.next around).status ch) : Pending w.tasklet.status ch := by
      obtain ⟨mask, cleared⟩ := next_status w.tasklet around
      rw [cleared] at left
      exact pending_and left
    obtain ⟨-, after⟩ | ⟨j, -, -, -, after⟩ | ⟨j, -, -, -, after⟩ | ⟨around, -, -, -, after⟩ :=
      step_cases served (Bool.not_eq_true _ ▸ crashed) d2 call
    · rw [after] at left
      unfold Interrupts.step at left
      dsimp only at left
      split at left <;> exact left
    · rw [after] at left
      exact kept _ left
    · rw [after] at left
      exact left
    · rw [after] at left
      exact kept _ left

theorem alive_step (drains : w.Drains d2 defaultWeight) (call : Callback) : (w.step d2 call).crashed = false := by
  obtain ⟨-, after⟩ | ⟨ch, -, -, -, after⟩ | ⟨ch, point, readable, null, -⟩ | ⟨around, -, -, -, after⟩ :=
    step_cases drains.served drains.alive d2 call
  · rw [after]
    exact drains.alive
  · rw [after]
    exact drains.alive
  · have pending := (serves_of_selected drains.served.ordered.sound.selected (.inl point)).pending
    have unread := (drains.endable ch (served_rx drains.served point) pending).2 null
    exact absurd (unread.symm.trans readable) Bool.false_ne_true
  · rw [after]
    exact drains.alive

theorem drains_step (drains : w.Drains d2 defaultWeight) (supplied : call.alloc.buffer ≠ 0) :
    (w.step d2 call).Drains d2 defaultWeight :=
  ⟨served_step drains.served call, alive_step drains call, fun ch receives left =>
    (step_ends drains.served supplied ch).mpr (drains.endable ch receives (step_pending drains.served left))⟩

/-! ### A channel that does not end -/

/-- The channel comes to a descriptor that is neither complete nor with the engine, or its packet is looked for through a
null pointer. -/
structure Work.Stuck (d2 : Bool) (w : Work) (ch : Channel) : Prop where
  receives : ch.receives = true
  pending : Pending w.tasklet.status ch
  endless : ¬ w.Ends d2 ch

theorem endable_of_own (own : c.current.own = true) : c.Endable d2 := by
  intro k before
  cases k with
  | zero => exact .inr own
  | succ k =>
    have read := before 0 (Nat.zero_lt_succ _)
    have unread : c.current.readable d2 = false := not_readable_of_own own
    exact absurd (unread.symm.trans read) nofun

/-- Without a callback that switches channels off, a bit is only cleared for the channel that is served. -/
theorem next_pending {ch : Channel} (pending : Pending s.status ch) (kept : around.disabled = 0)
    (tx : s.point ≠ .tx ch) (rx : s.point = .rx ch → around.complete = true ∨ around.own = false) :
    Pending (s.next around).status ch := by
  have all : s.status &&& ~~~(0 : U32) = s.status := BitVec.and_allOnes
  unfold Interrupts.next Interrupts.selectNext
  cases point : s.point with
  | idle | rxWeight ch' | refill => exact pending
  | loop | budget | leave =>
    dsimp only
    split <;> exact pending
  | select i chan weight =>
    dsimp only
    split
    · split <;> exact pending
    · cases chan <;> exact pending
  | rx ch' =>
    dsimp only
    split
    · dsimp only
      rwa [kept, all]
    · rename_i incomplete
      dsimp only
      split
      · rename_i own
        refine pending_clear.mpr ⟨pending, fun same => ?_⟩
        obtain complete | with_cpu := rx (by rw [point, same])
        · exact incomplete complete
        · rw [own] at with_cpu
          cases with_cpu
      · exact pending
  | tx ch' =>
    refine pending_clear.mpr ⟨pending, fun same => tx ?_⟩
    rw [point, same]
  | txHandler ch' =>
    dsimp only
    rwa [kept, all]

theorem ends_of_own {ch : Channel} (own : (w.chans ch).current.own = true) : w.Ends d2 ch :=
  ⟨endable_of_own own, fun _ => not_readable_of_own own⟩

theorem stuck_step {ch : Channel} (served : w.tasklet.Served defaultWeight) (stuck : w.Stuck d2 ch)
    (supplied : call.alloc.buffer ≠ 0) (kept : call.disabled = 0) : (w.step d2 call).Stuck d2 ch := by
  refine ⟨stuck.receives, ?_, fun ends => stuck.endless ((step_ends served supplied ch).mp ends)⟩
  have elsewhere : w.tasklet.point ≠ .tx ch := by
    intro point
    have selected := served.ordered.sound.selected
    unfold Interrupts.Selected at selected
    rw [point] at selected
    exact Bool.false_ne_true (selected.1.symm.trans stuck.receives)
  by_cases crashed : w.crashed = true
  · rw [step_crashed crashed]
    exact stuck.pending
  · obtain ⟨-, after⟩ | ⟨j, point, readable, -, after⟩ | ⟨j, -, -, -, after⟩ | ⟨around, -, disabled, unread, after⟩ :=
      step_cases served (Bool.not_eq_true _ ▸ crashed) d2 call
    · rw [after]
      unfold Interrupts.step
      dsimp only
      split <;> exact stuck.pending
    · rw [after]
      refine next_pending stuck.pending kept elsewhere fun here => .inl ?_
      obtain rfl : j = ch := TaskletAt.rx.inj (point.symm.trans here)
      exact readable
    · rw [after]
      exact stuck.pending
    · rw [after]
      refine next_pending stuck.pending (disabled.trans kept) elsewhere fun here => .inr ?_
      obtain ⟨-, rfl⟩ := unread ch here
      by_contra own
      exact stuck.endless (ends_of_own (by simpa [Work.around] using own))

theorem stuck_forever {ch : Channel} (served : w.tasklet.Served defaultWeight) (stuck : w.Stuck d2 ch) (calls : List Callback)
    (supplied : ∀ call ∈ calls, call.alloc.buffer ≠ 0 ∧ call.disabled = 0) :
    (exec (Work.step d2) w calls).tasklet.status ≠ 0 := by
  have kept : (exec (Work.step d2) w calls).tasklet.Served defaultWeight ∧ (exec (Work.step d2) w calls).Stuck d2 ch :=
    @exec_invariant _ _ (Work.step d2) (fun w => w.tasklet.Served defaultWeight ∧ w.Stuck d2 ch)
      (fun call => call.alloc.buffer ≠ 0 ∧ call.disabled = 0)
      (fun _ call inv allowed => ⟨served_step inv.1 call, stuck_step inv.1 inv.2 allowed.1 allowed.2⟩)
      w ⟨served, stuck⟩ calls supplied
  intro none_pending
  have left := kept.2.pending
  unfold Pending at left
  rw [none_pending] at left
  simp at left

theorem drains_eventually (positive : ∀ ch, 0 < defaultWeight ch) (drains : w.Drains d2 defaultWeight) {calls : Nat → Callback}
    (supplied : ∀ n, (calls n).alloc.buffer ≠ 0) :
    ∃ n, (exec (Work.step d2) w ((List.range n).map calls)).tasklet.status = 0 :=
  @exec_eventually _ _ (Work.step d2) (fun call => call.alloc.buffer ≠ 0) (fun w => w.Drains d2 defaultWeight)
    (fun w => w.tasklet.status = 0) Work.measure (fun _ _ inv allowed => drains_step inv allowed)
    (fun _ _ inv allowed left => measure_step inv positive allowed left) w drains calls supplied

/-- The tasklet comes to an end in every run if and only if every receive channel that is pending comes to a descriptor of
the engine, and MCTRL1's to nothing else. -/
theorem tasklet_drains_iff (d2 : Bool) (defaultWeight : Channel → Int) (positive : ∀ ch, 0 < defaultWeight ch)
    (before : List InterruptEvent) (chans : Channel → Chan) :
    let w : Work := { tasklet := exec Interrupts.step { weight := defaultWeight, defaultWeight } before, chans := chans }
    (∀ calls : Nat → Callback, (∀ n, (calls n).alloc.buffer ≠ 0) →
        ∃ n, (exec (Work.step d2) w ((List.range n).map calls)).tasklet.status = 0) ↔
      w.Endable d2 := by
  intro w
  have served : w.tasklet.Served defaultWeight := served_exec (served_start defaultWeight) before
  constructor
  · intro ends ch receives pending
    by_contra endless
    let call : Callback := { alloc := { buffer := 1, byteOffset := 0, opt := 0 } }
    obtain ⟨n, done⟩ := ends (fun _ => call) fun _ => Nat.one_ne_zero
    refine stuck_forever served ⟨receives, pending, endless⟩ _ (fun same member => ?_) done
    obtain ⟨k, -, rfl⟩ := List.mem_map.mp member
    exact ⟨Nat.one_ne_zero, rfl⟩
  · intro endable calls supplied
    exact drains_eventually positive ⟨served, rfl, endable⟩ supplied

def emptyRing : Chan where
  control := true
  ring := [{ status := dmaOwn }]
  packetSize := 1600

theorem tasklet_drains_empty :
    ∃ n, (exec (Work.step true)
      { tasklet := exec Interrupts.step { weight := fun _ => 100, defaultWeight := fun _ => 100 } [.interrupt 0]
        chans := fun _ => emptyRing }
      ((List.range n).map fun _ => { alloc := { buffer := 1, byteOffset := 0, opt := 0 } })).tasklet.status = 0 :=
  (tasklet_drains_iff true (fun _ => 100) (by decide) [.interrupt 0] fun _ => emptyRing).mpr
    (fun _ _ _ => ends_of_own (show emptyRing.current.own = true by decide)) _ fun _ => Nat.one_ne_zero

/-- A device got a buffer for the first of two descriptors only when it was registered, and a packet came. -/
def halfRegistered : Chan :=
  let got : Alloc := { buffer := 0x80001000, byteOffset := 0, opt := 0x80002000 }
  let none_left : Alloc := { buffer := 0, byteOffset := 0, opt := 0 }
  let alloc : Nat → Alloc := fun j => if j = 0 then got else none_left
  ((RxRun.start { control := true, ring := [{}, {}], packetSize := 1600 } alloc).receive 100).chan

theorem halfRegistered_endless : ¬ halfRegistered.Endable true := by
  intro endable
  have second := endable 1 fun j below => by
    obtain rfl : j = 0 := by omega
    decide
  revert second
  decide

/-- The second descriptor is never complete and never with the engine: the tasklet reschedules itself for ever. -/
theorem half_registered_never_drains :
    let w : Work :=
      { tasklet := exec Interrupts.step { weight := fun _ => 100, defaultWeight := fun _ => 100 } [.interrupt 0]
        chans := fun _ => halfRegistered }
    (∀ calls : List Callback, (∀ call ∈ calls, call.alloc.buffer ≠ 0 ∧ call.disabled = 0) →
      (exec (Work.step true) w calls).tasklet.status ≠ 0) ∧
    ¬ ∀ calls : Nat → Callback, (∀ n, (calls n).alloc.buffer ≠ 0) →
      ∃ n, (exec (Work.step true) w ((List.range n).map calls)).tasklet.status = 0 := by
  intro w
  have served : w.tasklet.Served fun _ => 100 := served_exec (served_start _) [.interrupt 0]
  have stuck : w.Stuck true 0 := ⟨by decide, by unfold Pending; decide, fun ends => halfRegistered_endless ends.1⟩
  refine ⟨stuck_forever served stuck, fun drains => ?_⟩
  obtain ⟨n, done⟩ := drains (fun _ => { alloc := { buffer := 1, byteOffset := 0, opt := 0 } }) fun _ => Nat.one_ne_zero
  refine stuck_forever served stuck _ (fun call member => ?_) done
  obtain ⟨k, -, rfl⟩ := List.mem_map.mp member
  exact ⟨Nat.one_ne_zero, rfl⟩

end TwinpassGateway.Dma
