import TwinpassGateway.Dma.Rings
import TwinpassGateway.Foundation.Run
import TwinpassGateway.Foundation.Window

/-!
`dma_device_write` on one channel, statement by statement, while the hardware completes descriptors at any
moment: the ledger of what is accepted and what is released.
-/

namespace TwinpassGateway.Dma

open Foundation Foundation.Window

/-! ### The machine -/

/-- Where `dma_device_write` is: interrupts are off in it, so there is one call at a time. -/
inductive TxPhase where
  | idle
  /-- At the condition of the loop. -/
  | reclaim (dataptr len opt : Nat)
  /-- Where the descriptor for the new data is checked. -/
  | check (dataptr len opt : Nat)

structure TxRun where
  chan : Chan
  phase : TxPhase := .idle
  /-- The descriptors as they were filled, oldest first. -/
  accepted : List Slot := []
  /-- The descriptors as they were when their buffers were freed, oldest first. -/
  released : List Slot := []
  /-- Length and result of the last call. -/
  returned : Option (Nat × Nat) := none

inductive TxEvent where
  | call (dataptr len opt : Nat)
  | run
  /-- The hardware is done with a descriptor, if it has it. -/
  | complete (j : Nat)

/-- The descriptor and the entry of `opt` that a write fills in. -/
def txSlot (txBurstLen dataptr len opt : Nat) : Slot :=
  let byteOffset := cphysaddr dataptr % (txBurstLen * 4)
  { status := txStatus byteOffset len, dataPointer := cphysaddr dataptr - byteOffset, opt }

def TxRun.enter (s : TxRun) (dataptr len opt : Nat) : TxRun :=
  match s.phase with
  | .idle => { s with phase := .reclaim dataptr len opt }
  | _ => s

def TxRun.next (txBurstLen : Nat) (s : TxRun) : TxRun :=
  match s.phase with
  | .idle => s
  | .reclaim dataptr len opt =>
    let x := s.chan.slot s.chan.prevDesc
    if x.complete then { s with chan := s.chan.reclaimOne, released := s.released ++ [x] }
    else { s with phase := .check dataptr len opt }
  | .check dataptr len opt =>
    if s.chan.full then { s with phase := .idle, returned := some (len, 0) }
    else
      let y := txSlot txBurstLen dataptr len opt
      { s with
        chan := (s.chan.setSlot s.chan.currDesc y).advance
        phase := .idle
        accepted := s.accepted ++ [y]
        returned := some (len, len) }

def TxRun.step (txBurstLen : Nat) (s : TxRun) : TxEvent → TxRun
  | .call dataptr len opt => s.enter dataptr len opt
  | .run => s.next txBurstLen
  | .complete j => { s with chan := s.chan.complete j none }

/-! ### Descriptors in use -/

def Slot.key (x : Slot) : Buffer := (x.dataPointer, x.opt)

def Slot.used (x : Slot) : Bool := x.own || x.c

/-- The `count` descriptors from `prevDesc` on, up to `currDesc`, are in use, and no others. -/
structure Chan.Holds (ch : Chan) (count : Nat) : Prop where
  prev : ch.prevDesc < ch.ring.length
  fits : count ≤ ch.ring.length
  curr : ch.currDesc = place ch.ring.length ch.prevDesc count
  used : ∀ i < count, (ch.slot (place ch.ring.length ch.prevDesc i)).used = true
  free : ∀ i, count ≤ i → i < ch.ring.length → (ch.slot (place ch.ring.length ch.prevDesc i)).used = false

def Chan.pending (ch : Chan) (count : Nat) : List Slot := window ch.slot ch.ring.length ch.prevDesc count

variable {ch : Chan} {count j : Nat} {x y : Slot}

theorem slot_setSlot (inside : j < ch.ring.length) (x : Slot) :
    (ch.setSlot j x).slot = Function.update ch.slot j x := by
  funext i
  unfold Chan.slot Chan.setSlot
  rw [List.getD_eq_getElem?_getD]
  by_cases same : i = j
  · subst same
    rw [Function.update_self, List.getElem?_set_self inside, Option.getD_some]
  · rw [Function.update_of_ne same, List.getElem?_set_ne (Ne.symm same), List.getD_eq_getElem?_getD]

theorem advance_curr (ch : Chan) (inside : ch.currDesc < ch.ring.length) :
    ch.advance.currDesc = place ch.ring.length ch.currDesc 1 := by
  show (if ch.currDesc + 1 = ch.ring.length then 0 else ch.currDesc + 1) = _
  unfold place
  split
  · rename_i last
    rw [last, Nat.mod_self]
  · rw [Nat.mod_eq_of_lt (by omega)]

theorem stored_length (ch : Chan) (j : Nat) (x : Slot) : ((ch.setSlot j x).advance).ring.length = ch.ring.length :=
  List.length_set

theorem stored_curr (inside : ch.currDesc < ch.ring.length) (x : Slot) :
    ((ch.setSlot ch.currDesc x).advance).currDesc = place ch.ring.length ch.currDesc 1 := by
  have size : (ch.setSlot ch.currDesc x).ring.length = ch.ring.length := List.length_set
  rw [advance_curr (ch.setSlot ch.currDesc x) (lt_of_lt_of_eq inside size.symm), size]
  rfl

theorem clear_used (x : Slot) : x.clear.used = false := by simp [Slot.used, Slot.clear, Slot.own, Slot.c]

theorem used_of_complete (complete : x.complete = true) : x.used = true := by
  rw [Slot.complete, Bool.and_eq_true] at complete
  rw [Slot.used, complete.2, Bool.or_true]

theorem own_of_complete (complete : x.complete = true) : x.own = false := by
  rw [Slot.complete, Bool.and_eq_true, Bool.not_eq_true'] at complete
  exact complete.1

theorem used_of_own (own : x.own = true) : x.used = true := by rw [Slot.used, own, Bool.true_or]

theorem done_used (x : Slot) (received : Option (BitVec 16)) : (x.done received).used = true := by
  rw [Slot.used, done_c, Bool.or_true]

theorem done_key (x : Slot) (received : Option (BitVec 16)) : (x.done received).key = x.key := rfl

theorem txSlot_own (txBurstLen dataptr len opt : Nat) : (txSlot txBurstLen dataptr len opt).own = true :=
  txStatus_own _ _

/-- The write is refused exactly when every descriptor is in use. -/
theorem full_iff (holds : ch.Holds count) : ch.full = true ↔ count = ch.ring.length := by
  have used : ch.full = (ch.slot ch.currDesc).used := rfl
  rw [used, holds.curr]
  constructor
  · intro full
    by_contra room
    have free := holds.free count (le_refl count) (lt_of_le_of_ne holds.fits room)
    rw [full] at free
    cases free
  · rintro rfl
    have first := holds.used 0 (Nat.zero_lt_of_lt holds.prev)
    rw [place_zero holds.prev] at first
    rwa [place_self holds.prev]

/-! ### What the steps do to the ring -/

theorem holds_reclaimOne (holds : ch.Holds count) (complete : (ch.slot ch.prevDesc).complete = true) :
    ∃ fewer, count = fewer + 1 ∧ ch.reclaimOne.Holds fewer ∧
      ch.pending count = ch.slot ch.prevDesc :: ch.reclaimOne.pending fewer := by
  have start := holds.prev
  obtain ⟨fewer, rfl⟩ : ∃ fewer, count = fewer + 1 := by
    cases count with
    | zero =>
      have free := holds.free 0 (le_refl 0) (Nat.zero_lt_of_lt start)
      rw [place_zero start, used_of_complete complete] at free
      cases free
    | succ fewer => exact ⟨fewer, rfl⟩
  have fits := holds.fits
  have size : ch.reclaimOne.ring.length = ch.ring.length := List.length_set
  have slots : ch.reclaimOne.slot = Function.update ch.slot ch.prevDesc (ch.slot ch.prevDesc).clear := slot_setSlot start _
  have prev : ch.reclaimOne.prevDesc = place ch.ring.length ch.prevDesc 1 := rfl
  refine ⟨fewer, rfl, ⟨?_, ?_, ?_, ?_, ?_⟩, ?_⟩
  · rw [prev, size]
    exact place_lt start
  · omega
  · rw [prev, size, place_succ]
    exact holds.curr
  · intro i inside
    rw [prev, size, place_succ, slots, update_start start (by omega)]
    exact holds.used (i + 1) (by omega)
  · intro i outside inside
    rw [size] at inside
    rw [prev, size, place_succ]
    by_cases last : i + 1 = ch.ring.length
    · rw [last, place_self start, slots, Function.update_self]
      exact clear_used _
    · rw [slots, update_start start (by omega)]
      exact holds.free (i + 1) (by omega) (by omega)
  · rw [Chan.pending, Chan.pending, window_cons start, slots, size, prev, window_update_left start fits]

theorem holds_store (holds : ch.Holds count) (room : count < ch.ring.length) (used : y.used = true) :
    ((ch.setSlot ch.currDesc y).advance).Holds (count + 1) ∧
      ((ch.setSlot ch.currDesc y).advance).pending (count + 1) = ch.pending count ++ [y] := by
  have start := holds.prev
  have inside : ch.currDesc < ch.ring.length := by
    rw [holds.curr]
    exact place_lt start
  have size := stored_length ch ch.currDesc y
  have slots : ((ch.setSlot ch.currDesc y).advance).slot = Function.update ch.slot ch.currDesc y := slot_setSlot inside y
  have prev : ((ch.setSlot ch.currDesc y).advance).prevDesc = ch.prevDesc := rfl
  have curr : ((ch.setSlot ch.currDesc y).advance).currDesc = place ch.ring.length ch.prevDesc (count + 1) := by
    rw [stored_curr inside, holds.curr, place_next]
  refine ⟨⟨?_, ?_, ?_, ?_, ?_⟩, ?_⟩
  · rwa [prev, size]
  · rw [size]
    exact room
  · rw [curr, size, prev]
  · intro i less
    rw [slots, size, prev, holds.curr]
    by_cases newest : i = count
    · rw [newest, Function.update_self]
      exact used
    · rw [Function.update_of_ne (place_ne (by omega) (by omega))]
      exact holds.used i (by omega)
  · intro i more less
    rw [size] at less
    rw [slots, size, prev, holds.curr, Function.update_of_ne (place_ne (by omega) (by omega)).symm]
    exact holds.free i (by omega) less
  · rw [Chan.pending, Chan.pending, slots, size, prev, holds.curr, window_push room]

/-- A completion keeps what is pending, with its buffer and `opt`. -/
theorem holds_complete (holds : ch.Holds count) (j : Nat) (received : Option (BitVec 16)) :
    (ch.complete j received).Holds count ∧
      ((ch.complete j received).pending count).map Slot.key = (ch.pending count).map Slot.key := by
  unfold Chan.complete
  cases found : ch.ring[j]? with
  | none => exact ⟨holds, rfl⟩
  | some x =>
    simp only
    split
    · rename_i own
      have inside : j < ch.ring.length := (List.getElem?_eq_some_iff.mp found).1
      have here : ch.slot j = x := Option.some.inj ((slot_found inside).symm.trans found)
      have size : (ch.setSlot j (x.done received)).ring.length = ch.ring.length := List.length_set
      have slots : (ch.setSlot j (x.done received)).slot = Function.update ch.slot j (x.done received) := slot_setSlot inside _
      have use : ∀ p, ((ch.setSlot j (x.done received)).slot p).used = (ch.slot p).used := by
        intro p
        rw [slots]
        by_cases same : p = j
        · rw [same, Function.update_self, done_used, here, used_of_own own]
        · rw [Function.update_of_ne same]
      have keys : ∀ p, ((ch.setSlot j (x.done received)).slot p).key = (ch.slot p).key := by
        intro p
        rw [slots]
        by_cases same : p = j
        · rw [same, Function.update_self, done_key, here]
        · rw [Function.update_of_ne same]
      refine ⟨⟨?_, ?_, ?_, ?_, ?_⟩, ?_⟩
      · rw [size]
        exact holds.prev
      · rw [size]
        exact holds.fits
      · rw [size]
        exact holds.curr
      · intro i less
        rw [use, size]
        exact holds.used i less
      · intro i more less
        rw [size] at less
        rw [use, size]
        exact holds.free i more less
      · rw [Chan.pending, Chan.pending, size, window_map, window_map]
        exact window_congr fun i _ => keys _
    · exact ⟨holds, rfl⟩

/-! ### The ledger -/

variable {txBurstLen : Nat} {s : TxRun} {e : TxEvent}

structure TxRun.Ledger (s : TxRun) (count : Nat) : Prop where
  holds : s.chan.Holds count
  /-- What has been accepted is what has been released, in the same order, and then what is in the ring. -/
  account : s.accepted.map Slot.key = s.released.map Slot.key ++ (s.chan.pending count).map Slot.key
  /-- The hardware did not have the descriptors when their buffers were freed. -/
  owned : ∀ x ∈ s.released, x.own = false

theorem ledger_release (ledger : s.Ledger count) (complete : (s.chan.slot s.chan.prevDesc).complete = true) :
    ∃ fewer, TxRun.Ledger { s with
      chan := s.chan.reclaimOne, released := s.released ++ [s.chan.slot s.chan.prevDesc] } fewer := by
  obtain ⟨fewer, rfl, holds, oldest⟩ := holds_reclaimOne ledger.holds complete
  refine ⟨fewer, holds, ?_, ?_⟩
  · have account := ledger.account
    rw [oldest, List.map_cons] at account
    simp only
    rw [account, List.map_append, List.append_assoc]
    rfl
  · intro x member
    rcases List.mem_append.mp member with before | new
    · exact ledger.owned x before
    · rw [List.mem_singleton.mp new]
      exact own_of_complete complete

theorem ledger_step (ledger : s.Ledger count) (e : TxEvent) : ∃ count', (s.step txBurstLen e).Ledger count' := by
  cases e with
  | call dataptr len opt =>
    show ∃ count', (s.enter dataptr len opt).Ledger count'
    unfold TxRun.enter
    split
    · exact ⟨count, ledger.holds, ledger.account, ledger.owned⟩
    · exact ⟨count, ledger⟩
  | run =>
    show ∃ count', (s.next txBurstLen).Ledger count'
    unfold TxRun.next
    split
    · exact ⟨count, ledger⟩
    · simp only
      split
      · rename_i complete
        obtain ⟨fewer, kept⟩ := ledger_release ledger complete
        exact ⟨fewer, kept⟩
      · exact ⟨count, ledger.holds, ledger.account, ledger.owned⟩
    · simp only
      split
      · exact ⟨count, ledger.holds, ledger.account, ledger.owned⟩
      · rename_i room
        have more : count < s.chan.ring.length :=
          lt_of_le_of_ne ledger.holds.fits fun full => room ((full_iff ledger.holds).mpr full)
        obtain ⟨holds, newest⟩ := holds_store ledger.holds more (used_of_own (txSlot_own _ _ _ _))
        refine ⟨count + 1, holds, ?_, ledger.owned⟩
        simp only
        rw [newest, List.map_append, List.map_append, ledger.account, List.append_assoc]
  | complete j =>
    obtain ⟨holds, keys⟩ := holds_complete ledger.holds j none
    refine ⟨count, holds, ?_, ledger.owned⟩
    simp only [TxRun.step]
    rw [keys]
    exact ledger.account

theorem ledger_exec (ledger : s.Ledger count) (events : List TxEvent) :
    ∃ count', (exec (TxRun.step txBurstLen) s events).Ledger count' := by
  induction events generalizing s count with
  | nil => exact ⟨count, ledger⟩
  | cons e rest ih =>
    obtain ⟨count', next⟩ := ledger_step ledger e
    exact ih next

structure TxRun.StepOk (txBurstLen : Nat) (s : TxRun) (e : TxEvent) : Prop where
  /-- At most the buffer of the oldest descriptor is freed, and only when the hardware does not have it. -/
  frees : (s.step txBurstLen e).released = s.released ∨
    (s.step txBurstLen e).released = s.released ++ [s.chan.slot s.chan.prevDesc] ∧
      (s.chan.slot s.chan.prevDesc).own = false
  /-- A write of some length is refused only when every descriptor is in use, and then nothing changes. -/
  refuses : ∀ dataptr len opt, s.phase = .check dataptr len opt → 0 < len →
    (s.step txBurstLen .run).returned = some (len, 0) →
    s.chan.Holds s.chan.ring.length ∧ (s.step txBurstLen .run).chan = s.chan ∧
      (s.step txBurstLen .run).accepted = s.accepted ∧ (s.step txBurstLen .run).released = s.released
  /-- The loop does not end before an oldest descriptor that the hardware is done with. -/
  reclaims : ∀ dataptr len opt, s.phase = .reclaim dataptr len opt →
    (s.step txBurstLen .run).phase = .check dataptr len opt → (s.chan.slot s.chan.prevDesc).complete = false

theorem step_ok (ledger : s.Ledger count) (e : TxEvent) : s.StepOk txBurstLen e := by
  constructor
  · cases e with
    | call dataptr len opt =>
      left
      show (s.enter dataptr len opt).released = s.released
      unfold TxRun.enter
      split <;> rfl
    | run =>
      show (s.next txBurstLen).released = s.released ∨ (s.next txBurstLen).released = _ ∧ _
      unfold TxRun.next
      split
      · exact Or.inl rfl
      · simp only
        split
        · rename_i complete
          exact Or.inr ⟨rfl, own_of_complete complete⟩
        · exact Or.inl rfl
      · simp only
        split
        · exact Or.inl rfl
        · exact Or.inl rfl
    | complete j => exact Or.inl rfl
  · intro dataptr len opt checking positive refused
    simp only [TxRun.step, TxRun.next, checking] at refused ⊢
    split at refused
    · rename_i full
      have all := (full_iff ledger.holds).mp full
      rw [if_pos full]
      refine ⟨?_, rfl, rfl, rfl⟩
      have holds := ledger.holds
      rwa [all] at holds
    · -- an accepted write returns its length
      simp only [Option.some.injEq, Prod.mk.injEq, true_and] at refused
      omega
  · intro dataptr len opt reclaiming left
    simp only [TxRun.step, TxRun.next, reclaiming] at left
    split at left
    · cases left
    · rename_i stopped
      exact Bool.eq_false_of_not_eq_true stopped

/-- Along every run on an empty ring the ledger is kept, and every step keeps to it. -/
theorem transmit_ledger (txBurstLen : Nat) (ch : Chan) (empty : ch.Holds 0) (events : List TxEvent) :
    (∃ count, (exec (TxRun.step txBurstLen) { chan := ch } events).Ledger count) ∧
    ∀ before e after, events = before ++ e :: after →
      (exec (TxRun.step txBurstLen) { chan := ch } before).StepOk txBurstLen e := by
  have start : TxRun.Ledger { chan := ch } 0 := ⟨empty, rfl, fun _ member => nomatch member⟩
  refine ⟨ledger_exec start events, fun before e after _ => ?_⟩
  have kept : ∃ count, (exec (TxRun.step txBurstLen) { chan := ch } before).Ledger count := ledger_exec start before
  obtain ⟨count, ledger⟩ := kept
  exact step_ok ledger e

def sampleTxChan : Chan := Chan.registerTx { control := true, ring := [{}, {}], packetSize := 0 }

theorem holds_of_registered {ch : Chan} (on : ch.control = true) (some_slot : 0 < ch.ring.length)
    (start : ch.currDesc = 0 ∧ ch.prevDesc = 0) : ch.registerTx.Holds 0 := by
  have cleared : ch.registerTx = { ch with ring := ch.ring.map Slot.clear } := if_pos on
  have size : ch.registerTx.ring.length = ch.ring.length := by rw [cleared, List.length_map]
  refine ⟨?_, Nat.zero_le _, ?_, fun i less => absurd less (Nat.not_lt_zero i), ?_⟩
  · rw [size, cleared, start.2]
    exact some_slot
  · rw [place_zero (by rw [size, cleared, start.2]; exact some_slot), cleared, start.1, start.2]
  · intro i _ _
    rw [cleared, Chan.slot, List.getD_eq_getElem?_getD, List.getElem?_map]
    cases ch.ring[place (ch.ring.map Slot.clear).length ch.prevDesc i]? with
    | none => rfl
    | some x => exact clear_used x

theorem transmit_ledger_sample :
    (∃ count, (exec (TxRun.step 4) { chan := sampleTxChan }
      [.call 0x80000000 64 1, .run, .run, .complete 0, .call 0x80001000 64 2, .run, .run]).Ledger count) ∧
    ∀ before e after,
      [.call 0x80000000 64 1, .run, .run, .complete 0, .call 0x80001000 64 2, .run, .run] = before ++ e :: after →
      (exec (TxRun.step 4) { chan := sampleTxChan } before).StepOk 4 e :=
  transmit_ledger 4 sampleTxChan (holds_of_registered rfl (by decide) ⟨rfl, rfl⟩) _

/-! ### The function as a whole -/

theorem exec_idle (idle : s.phase = .idle) (steps : Nat) :
    exec (TxRun.step txBurstLen) s (List.replicate steps .run) = s := by
  induction steps with
  | zero => rfl
  | succ steps ih =>
    have still : s.step txBurstLen .run = s := by simp only [TxRun.step, TxRun.next, idle]
    rw [List.replicate_succ, exec_cons, still, ih]

theorem reclaim_stopped {turns : Nat} (stopped : (ch.slot ch.prevDesc).complete = false) : (ch.reclaim turns).1 = ch := by
  cases turns with
  | zero => rfl
  | succ turns =>
    rw [Chan.reclaim]
    simp [stopped]

/-- What a call has done to the channel when it returns, and its result. -/
def writeOutcome (txBurstLen : Nat) (ch : Chan) (dataptr len opt : Nat) : Chan × Nat :=
  if ch.full then (ch, 0) else ((ch.setSlot ch.currDesc (txSlot txBurstLen dataptr len opt)).advance, len)

theorem reclaim_steps_stopped {dataptr len opt turns steps : Nat} (reclaiming : s.phase = .reclaim dataptr len opt)
    (stopped : (s.chan.slot s.chan.prevDesc).complete = false) (long : 2 ≤ steps) :
    (exec (TxRun.step txBurstLen) s (List.replicate steps .run)).chan =
        (writeOutcome txBurstLen (s.chan.reclaim turns).1 dataptr len opt).1 ∧
      (exec (TxRun.step txBurstLen) s (List.replicate steps .run)).returned =
        some (len, (writeOutcome txBurstLen (s.chan.reclaim turns).1 dataptr len opt).2) := by
  obtain ⟨rest, rfl⟩ : ∃ rest, steps = rest + 1 + 1 := ⟨steps - 2, by omega⟩
  have leave : s.step txBurstLen .run = { s with phase := .check dataptr len opt } := by
    simp [TxRun.step, TxRun.next, reclaiming, stopped]
  rw [List.replicate_succ, exec_cons, leave, List.replicate_succ, exec_cons, reclaim_stopped stopped]
  unfold writeOutcome
  by_cases full : s.chan.full = true
  · have refused : TxRun.step txBurstLen { s with phase := .check dataptr len opt } .run =
        { s with phase := .idle, returned := some (len, 0) } := if_pos full
    rw [refused, exec_idle rfl, if_pos full]
    exact ⟨rfl, rfl⟩
  · have stored : TxRun.step txBurstLen { s with phase := .check dataptr len opt } .run =
        { s with
          chan := (s.chan.setSlot s.chan.currDesc (txSlot txBurstLen dataptr len opt)).advance
          phase := .idle
          accepted := s.accepted ++ [txSlot txBurstLen dataptr len opt]
          returned := some (len, len) } := if_neg full
    rw [stored, exec_idle rfl, if_neg full]
    exact ⟨rfl, rfl⟩

theorem reclaim_steps (txBurstLen : Nat) {dataptr len opt turns steps : Nat} (reclaiming : s.phase = .reclaim dataptr len opt)
    (holds : s.chan.Holds count) (enough : count ≤ turns) (long : count + 2 ≤ steps) :
    (exec (TxRun.step txBurstLen) s (List.replicate steps .run)).chan =
        (writeOutcome txBurstLen (s.chan.reclaim turns).1 dataptr len opt).1 ∧
      (exec (TxRun.step txBurstLen) s (List.replicate steps .run)).returned =
        some (len, (writeOutcome txBurstLen (s.chan.reclaim turns).1 dataptr len opt).2) := by
  induction count generalizing s turns steps with
  | zero =>
    have stopped : (s.chan.slot s.chan.prevDesc).complete = false := by
      by_contra complete
      obtain ⟨fewer, impossible, _⟩ := holds_reclaimOne holds (Bool.eq_true_of_not_eq_false complete)
      cases impossible
    exact reclaim_steps_stopped reclaiming stopped long
  | succ fewer ih =>
    by_cases complete : (s.chan.slot s.chan.prevDesc).complete = true
    · obtain ⟨fewer', same, holds', _⟩ := holds_reclaimOne holds complete
      cases same
      obtain ⟨turns, rfl⟩ : ∃ more, turns = more + 1 := ⟨turns - 1, by omega⟩
      obtain ⟨steps, rfl⟩ : ∃ more, steps = more + 1 := ⟨steps - 1, by omega⟩
      have next : s.step txBurstLen .run = { s with
          chan := s.chan.reclaimOne, released := s.released ++ [s.chan.slot s.chan.prevDesc] } := by
        simp [TxRun.step, TxRun.next, reclaiming, complete]
      have shorter : (s.chan.reclaim (turns + 1)).1 = (s.chan.reclaimOne.reclaim turns).1 := by
        rw [Chan.reclaim]
        simp [complete]
      rw [List.replicate_succ, exec_cons, next, shorter]
      exact ih reclaiming holds' (by omega) (by omega)
    · exact reclaim_steps_stopped reclaiming (Bool.eq_false_of_not_eq_true complete) (by omega)

/-- Left alone by the hardware, the statements of a call do what `dmaDeviceWrite` does. -/
theorem write_steps {dev : Device} {dataptr len opt : Nat} (current : dev.tx[dev.currentTxChan]? = some s.chan)
    (idle : s.phase = .idle) (holds : s.chan.Holds count) :
    (dmaDeviceWrite dev dataptr len opt).2.tx[dev.currentTxChan]? =
        some (exec (TxRun.step dev.txBurstLen) s
          (.call dataptr len opt :: List.replicate (s.chan.ring.length + 2) .run)).chan ∧
      (exec (TxRun.step dev.txBurstLen) s
          (.call dataptr len opt :: List.replicate (s.chan.ring.length + 2) .run)).returned =
        some (len, (dmaDeviceWrite dev dataptr len opt).1) := by
  have called : s.step dev.txBurstLen (.call dataptr len opt) = { s with phase := .reclaim dataptr len opt } := by
    simp only [TxRun.step, TxRun.enter, idle]
  rw [exec_cons, called]
  obtain ⟨chan, returned⟩ := reclaim_steps dev.txBurstLen (s := { s with phase := .reclaim dataptr len opt })
    rfl holds holds.fits (Nat.add_le_add_right holds.fits 2)
  rw [chan, returned]
  have inside : dev.currentTxChan < dev.tx.length := (List.getElem?_eq_some_iff.mp current).1
  unfold dmaDeviceWrite writeOutcome
  rw [current]
  simp only
  split
  · exact ⟨by simp [inside], rfl⟩
  · exact ⟨by simp [inside, txSlot], rfl⟩

end TwinpassGateway.Dma
