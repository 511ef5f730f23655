import TwinpassGateway.Mps.Callbacks
import TwinpassGateway.Mps.DatamsgQueue

/-!
Reception of messages. The interrupt handler copies each message out of its mailbox into a record of its own and
queues the record; the tasklet delivers the queued records and frees them. CPU0 and CPU1 have the same code, for
their upstream and downstream mailboxes.
-/

namespace TwinpassGateway.Mps

open Foundation

/-- `mps_rcvDataMsgQ` and `mps_rcvCmdMsgQ`, and the mailboxes they are filled from. -/
inductive RcvQ where
  | data
  | cmd
  deriving DecidableEq

structure MpsDataMessage where
  msgType : U8
  msgSeqno : U8
  msgCmd : BitVec 16
  msgBufAddr : U32
  deriving DecidableEq

def MpsDataMessage.dataCmd (msg : MpsDataMessage) : DataCmd :=
  if msg.msgCmd = 0x101 ∨ msg.msgCmd = 0x201 then .dataMsg
  else if msg.msgCmd = 0x103 ∨ msg.msgCmd = 0x203 then .appMsg
  else if msg.msgCmd = 0x102 ∨ msg.msgCmd = 0x202 then .dataListMsg
  else .unknown

def MpsDataMessage.CarriesData (msg : MpsDataMessage) : Prop :=
  (msg.msgType = 0x01 ∨ msg.msgType = 0x02) ∧ msg.dataCmd = .dataMsg

/-- A copied message in memory of `kmalloc`, with the number of that allocation. -/
structure MsgRecord where
  id : Nat
  msg : MpsDataMessage
  deriving DecidableEq

structure Reception where
  /-- What the mailbox FIFOs still present. -/
  fifo : RcvQ → List MpsDataMessage
  rcvMsgQ : RcvQ → MpsDatamsgList MsgRecord
  /-- The record that a tasklet has taken and not freed yet. -/
  inHand : RcvQ → Option MsgRecord
  tables : CallbackTables
  allocated : List MsgRecord := []
  freed : List MsgRecord := []
  /-- The messages whose `msg_buf_addr` went to `mps_dev_kfree_skb_any`. -/
  released : List MpsDataMessage := []
  delivered : List (MpsDataMessage × Delivery) := []

/-- After `ifx_mps_init_module`, whatever the rings held before. -/
def Reception.start (mem : RcvQ → MpsDatamsgList MsgRecord) : Reception :=
  { fifo := fun _ => []
    rcvMsgQ := fun q => mpsDatamsgQueueInit (mem q)
    inHand := fun _ => none
    tables := .start }

def Reception.kmalloc (s : Reception) (msg : MpsDataMessage) : MsgRecord := { id := s.allocated.length, msg }

/-- The body of the loop of `_ifx_mpsdrv_mbx_read_usdMsg` and its three siblings behind the allocation. What
`mps_datamsg_enqueue_tail` returns is ignored. -/
def Reception.receive (s : Reception) (q : RcvQ) (msg : MpsDataMessage) : Reception :=
  let pDataMsg := s.kmalloc msg
  let (_, ring, discarded) := mpsDatamsgEnqueueTail pDataMsg (some (s.rcvMsgQ q))
  { s with
    rcvMsgQ := Function.update s.rcvMsgQ q (ring.getD (s.rcvMsgQ q))
    allocated := s.allocated ++ [pDataMsg]
    released := s.released ++ (discarded.map MsgRecord.msg).toList }

/-- One turn of that loop, which leaves the message in the FIFO if there is no memory for it. -/
def Reception.mbxReadMsg (s : Reception) (q : RcvQ) (granted : Bool) : Reception :=
  match s.fifo q with
  | [] => s
  | msg :: rest =>
    if granted then { s.receive q msg with fifo := Function.update s.fifo q rest } else s

def Reception.take (s : Reception) (q : RcvQ) : Reception :=
  match s.inHand q with
  | some _ => s
  | none =>
    let (pMsg, ring) := mpsDatamsgDequeueHead (some (s.rcvMsgQ q))
    { s with
      rcvMsgQ := Function.update s.rcvMsgQ q (ring.getD (s.rcvMsgQ q))
      inHand := Function.update s.inHand q pMsg }

def Reception.finish (s : Reception) (q : RcvQ) : Reception :=
  match s.inHand q with
  | none => s
  | some pMsg =>
    { s with
      inHand := Function.update s.inHand q none
      freed := s.freed ++ [pMsg]
      delivered := s.delivered ++ [(pMsg.msg, deliver s.tables pMsg.msg.msgSeqno pMsg.msg.dataCmd)] }

inductive ReceptionEvent where
  /-- The other CPU puts a message into the FIFO. -/
  | arrive (q : RcvQ) (msg : MpsDataMessage)
  | mbxReadMsg (q : RcvQ) (granted : Bool)
  | take (q : RcvQ)
  | finish (q : RcvQ)
  /-- `ifx_mpsdrv_mbx_rcv`, which copies the message to the caller. -/
  | rcv (q : RcvQ)
  | register (seq : U8) (callback : Option Nat)
  | unregister (seq : U8)
  /-- `ifx_mpsdrv_reset`. -/
  | reset

def Reception.step (s : Reception) : ReceptionEvent → Reception
  | .arrive q msg => { s with fifo := Function.update s.fifo q (s.fifo q ++ [msg]) }
  | .mbxReadMsg q granted => s.mbxReadMsg q granted
  | .take q => s.take q
  | .finish q => s.finish q
  | .rcv q => { s with fifo := Function.update s.fifo q (s.fifo q).tail }
  | .register seq callback => { s with tables := (mpsRegisterCallback s.tables seq callback).2 }
  | .unregister seq => { s with tables := (mpsUnregisterCallback s.tables seq).2 }
  | .reset => { s with fifo := fun _ => [], tables := mpsdrvResetStructures s.tables }

/-! ### Conservation -/

def Reception.Pending (s : Reception) (items : RcvQ → List MsgRecord) : Prop :=
  ∀ q, ∃ queued, (s.rcvMsgQ q).Holds queued ∧ items q = (s.inHand q).toList ++ queued

/-- Every record is queued, with its tasklet, or freed, and that once; and only data buffers have been released. -/
structure Reception.Conserved (s : Reception) : Prop where
  distinct : s.allocated.Nodup
  once : ∃ items, s.Pending items ∧ s.allocated.Perm (items .data ++ items .cmd ++ s.freed)
  released : ∀ msg ∈ s.released, msg.CarriesData

/-- A message is copied only while its ring has a free slot. -/
def Reception.Room (s : Reception) : ReceptionEvent → Prop
  | .mbxReadMsg q granted => granted = true → s.fifo q ≠ [] → mpsDatamsgIsQFull (s.rcvMsgQ q) = false
  | _ => True

/-! ### The records of one queue -/

variable {s : Reception} {q : RcvQ} {items : RcvQ → List MsgRecord}

theorem items_count_update (items : RcvQ → List MsgRecord) (q : RcvQ) (new : List MsgRecord) (r : MsgRecord) :
    (Function.update items q new .data).count r + (Function.update items q new .cmd).count r + (items q).count r =
      (items .data).count r + (items .cmd).count r + new.count r := by
  cases q
  · rw [Function.update_self, Function.update_of_ne (by decide)]
    omega
  · rw [Function.update_self, Function.update_of_ne (by decide)]
    omega

theorem pending_update (pending : s.Pending items) {ring : MpsDatamsgList MsgRecord}
    {queued : List MsgRecord} (holds : ring.Holds queued) (hand : Option MsgRecord) (s' : Reception)
    (rings : s'.rcvMsgQ = Function.update s.rcvMsgQ q ring) (hands : s'.inHand = Function.update s.inHand q hand) :
    s'.Pending (Function.update items q (hand.toList ++ queued)) := by
  intro q'
  rw [rings, hands]
  by_cases same : q' = q
  · subst same
    simp only [Function.update_self]
    exact ⟨queued, holds, rfl⟩
  · simp only [Function.update_of_ne same]
    exact pending q'

theorem holds_unique {α : Type*} {ring : MpsDatamsgList α} {xs ys : List α} (first : ring.Holds xs)
    (second : ring.Holds ys) : xs = ys := by
  apply List.map_injective_iff.mpr (Option.some_injective α)
  exact first.items.symm.trans second.items

theorem pending_unique {items' : RcvQ → List MsgRecord} (first : s.Pending items) (second : s.Pending items') :
    items = items' := by
  funext q
  obtain ⟨queued, holds, same⟩ := first q
  obtain ⟨queued', holds', same'⟩ := second q
  rw [same, same', holds_unique holds holds']

/-! ### Steps -/

/-- The numbers of the records are those of the allocations so far. -/
structure Reception.Sound (s : Reception) : Prop extends s.Conserved where
  numbered : ∀ r ∈ s.allocated, r.id < s.allocated.length

theorem reception_start_sound (mem : RcvQ → MpsDatamsgList MsgRecord) : (Reception.start mem).Sound :=
  ⟨⟨List.nodup_nil, ⟨fun _ => [], fun q => ⟨[], init_holds (mem q), rfl⟩, List.Perm.refl _⟩, nofun⟩, nofun⟩

theorem fresh_not_mem (sound : s.Sound) (msg : MpsDataMessage) : s.kmalloc msg ∉ s.allocated := by
  intro member
  exact Nat.lt_irrefl _ (sound.numbered _ member)

theorem nodup_append_fresh (sound : s.Sound) (msg : MpsDataMessage) :
    (s.allocated ++ [s.kmalloc msg]).Nodup := by
  have fresh := fresh_not_mem sound msg
  rw [List.nodup_append]
  refine ⟨sound.distinct, List.nodup_singleton _, fun r old r' new same => fresh ?_⟩
  rwa [← List.mem_singleton.mp new, ← same]

theorem numbered_append (sound : s.Sound) (msg : MpsDataMessage) (r : MsgRecord)
    (member : r ∈ s.allocated ++ [s.kmalloc msg]) :
    r.id < (s.allocated ++ [s.kmalloc msg]).length := by
  rw [List.length_append, List.length_singleton]
  rcases List.mem_append.mp member with old | new
  · exact Nat.lt_succ_of_lt (sound.numbered r old)
  · obtain rfl := List.mem_singleton.mp new
    exact Nat.lt_succ_self _

theorem receive_holds {queued : List MsgRecord} (holds : (s.rcvMsgQ q).Holds queued)
    (free : queued.length < maxMpsDatamsgQlen) (msg : MpsDataMessage) :
    ((s.receive q msg).rcvMsgQ q).Holds (queued ++ [s.kmalloc msg]) := by
  obtain ⟨ring, entered, holds'⟩ := enqueue_room holds free (s.kmalloc msg)
  simp only [Reception.receive, entered, Option.getD_some, Function.update_self]
  exact holds'

theorem receive_room (sound : s.Sound) (msg : MpsDataMessage) (room : mpsDatamsgIsQFull (s.rcvMsgQ q) = false) :
    (s.receive q msg).Sound := by
  obtain ⟨items, pending, perm⟩ := sound.once
  obtain ⟨queued, holds, here⟩ := pending q
  have free : queued.length < maxMpsDatamsgQlen := by
    refine lt_of_le_of_ne (length_le_qlen holds) fun full => ?_
    rw [(isQFull_iff holds).mpr full] at room
    exact Bool.noConfusion room
  obtain ⟨ring, entered, holds'⟩ := enqueue_room holds free (s.kmalloc msg)
  simp only [Reception.receive, entered, Option.getD_some, Option.map_none, Option.toList_none, List.append_nil]
  have moved := pending_update pending holds' (s.inHand q) { s with rcvMsgQ := Function.update s.rcvMsgQ q ring } rfl
    (Function.update_eq_self q s.inHand).symm
  refine ⟨⟨nodup_append_fresh sound msg, ⟨_, moved, ?_⟩, sound.released⟩, numbered_append sound msg⟩
  rw [List.perm_iff_count] at perm ⊢
  intro r
  have before := perm r
  have after := items_count_update items q ((s.inHand q).toList ++ (queued ++ [s.kmalloc msg])) r
  rw [here] at after
  simp only [List.count_append] at before after ⊢
  omega

/-- In a full ring the record of the message is lost. -/
theorem receive_full (sound : s.Sound) (msg : MpsDataMessage) (full : mpsDatamsgIsQFull (s.rcvMsgQ q) = true) :
    ¬ (s.receive q msg).Conserved := by
  obtain ⟨items, pending, perm⟩ := sound.once
  obtain ⟨queued, holds, here⟩ := pending q
  have refused := enqueue_full holds ((isQFull_iff holds).mp full) (s.kmalloc msg)
  intro conserved
  obtain ⟨items', pending', perm'⟩ := conserved.once
  simp only [Reception.receive, refused, Option.getD_some, Function.update_eq_self] at pending' perm'
  have same : items = items' := pending_unique pending pending'
  subst same
  have before := perm.length_eq
  have after := perm'.length_eq
  rw [List.length_append, List.length_singleton] at after
  omega

theorem take_sound (sound : s.Sound) (q : RcvQ) : (s.take q).Sound := by
  obtain ⟨items, pending, perm⟩ := sound.once
  obtain ⟨queued, holds, here⟩ := pending q
  unfold Reception.take
  cases busy : s.inHand q with
  | some _ => exact sound
  | none =>
    rw [busy, Option.toList_none, List.nil_append] at here
    refine ⟨⟨sound.distinct, ⟨items, ?_, perm⟩, sound.released⟩, sound.numbered⟩
    cases queued with
    | nil =>
      have idle : Function.update s.inHand q none = s.inHand := by
        rw [← busy, Function.update_eq_self]
      simp only [dequeue_nil holds, Option.getD_some, Function.update_eq_self, idle]
      exact pending
    | cons r queued =>
      obtain ⟨ring, taken, holds'⟩ := dequeue_cons holds
      simp only [taken, Option.getD_some]
      have moved := pending_update pending holds' (some r) { s with
        rcvMsgQ := Function.update s.rcvMsgQ q ring, inHand := Function.update s.inHand q (some r) } rfl rfl
      rw [Option.toList_some, List.singleton_append, ← here, Function.update_eq_self] at moved
      exact moved

theorem finish_sound (sound : s.Sound) (q : RcvQ) : (s.finish q).Sound := by
  obtain ⟨items, pending, perm⟩ := sound.once
  obtain ⟨queued, holds, here⟩ := pending q
  unfold Reception.finish
  cases busy : s.inHand q with
  | none => exact sound
  | some r =>
    have moved := pending_update pending holds none { s with inHand := Function.update s.inHand q none }
      (Function.update_eq_self q s.rcvMsgQ).symm rfl
    refine ⟨⟨sound.distinct, ⟨_, moved, ?_⟩, sound.released⟩, sound.numbered⟩
    rw [List.perm_iff_count] at perm ⊢
    intro r'
    have before := perm r'
    have after := items_count_update items q queued r'
    rw [here, busy] at after
    simp only [List.count_append, Option.toList_some, Option.toList_none, List.nil_append] at before after ⊢
    omega

theorem sound_outside (sound : s.Sound) (fifo : RcvQ → List MpsDataMessage) (tables : CallbackTables) :
    { s with fifo, tables }.Sound :=
  ⟨⟨sound.distinct, sound.once, sound.released⟩, sound.numbered⟩

theorem reception_step_sound (s : Reception) (e : ReceptionEvent) (sound : s.Sound) (room : s.Room e) :
    (s.step e).Sound := by
  cases e with
  | mbxReadMsg q granted =>
    show (s.mbxReadMsg q granted).Sound
    unfold Reception.mbxReadMsg
    cases waiting : s.fifo q with
    | nil => exact sound
    | cons msg rest =>
      cases granted with
      | false => exact sound
      | true =>
        have free := room rfl (by rw [waiting]; exact List.cons_ne_nil _ _)
        exact sound_outside (receive_room sound msg free) _ _
  | take q => exact take_sound sound q
  | finish q => exact finish_sound sound q
  | arrive q msg => exact sound_outside sound _ _
  | rcv q => exact sound_outside sound _ _
  | register seq callback => exact sound_outside sound _ _
  | unregister seq => exact sound_outside sound _ _
  | reset => exact sound_outside sound _ _

theorem reception_spoiled (s : Reception) (e : ReceptionEvent) (sound : s.Sound) (full : ¬ s.Room e) :
    ¬ (s.step e).Conserved := by
  cases e with
  | mbxReadMsg q granted =>
    obtain ⟨ok, full⟩ := Classical.not_imp.mp full
    obtain ⟨some, full⟩ := Classical.not_imp.mp full
    obtain ⟨msg, rest, waiting⟩ := List.exists_cons_of_ne_nil some
    have lost := receive_full (q := q) sound msg (Bool.not_eq_false _ |>.mp full)
    show ¬ (s.mbxReadMsg q granted).Conserved
    rw [Reception.mbxReadMsg, waiting, ok]
    exact fun kept => lost ⟨kept.distinct, kept.once, kept.released⟩
  | _ => exact absurd trivial full

/-- In every state of a run the records are conserved and only data buffers have been released, exactly when no
message is copied while its ring is full. -/
theorem reception_conserved_iff (mem : RcvQ → MpsDatamsgList MsgRecord) (events : List ReceptionEvent) :
    (∀ before after, events = before ++ after → (exec Reception.step (.start mem) before).Conserved) ↔
      Guarded Reception.step Reception.Room (.start mem) events :=
  always_iff_guarded reception_step_sound (fun _ sound => sound.toConserved) reception_spoiled (reception_start_sound mem)

/-! ### A full ring -/

def reads (q : RcvQ) (msg : MpsDataMessage) : Nat → List ReceptionEvent
  | 0 => []
  | n + 1 => reads q msg n ++ [.arrive q msg, .mbxReadMsg q true]

theorem exec_reads_succ (s : Reception) (q : RcvQ) (msg : MpsDataMessage) (n : Nat) :
    exec Reception.step s (reads q msg (n + 1)) =
      ((exec Reception.step s (reads q msg n)).step (.arrive q msg)).mbxReadMsg q true := by
  rw [reads, exec_append]
  rfl

theorem mbxReadMsg_arrived (empty : s.fifo q = []) (msg : MpsDataMessage) :
    (s.step (.arrive q msg)).mbxReadMsg q true = s.receive q msg := by
  have waiting : (s.step (.arrive q msg)).fifo q = [msg] := by
    show Function.update s.fifo q _ q = _
    rw [Function.update_self, empty, List.nil_append]
  have drained : Function.update (s.step (.arrive q msg)).fifo q [] = s.fifo := by
    show Function.update (Function.update s.fifo q _) q [] = _
    rw [Function.update_idem, ← empty, Function.update_eq_self]
  rw [Reception.mbxReadMsg, waiting]
  show { s.receive q msg with fifo := Function.update (s.step (.arrive q msg)).fifo q [] } = _
  rw [drained]
  rfl

theorem reads_fill (mem : RcvQ → MpsDatamsgList MsgRecord) (q : RcvQ) (msg : MpsDataMessage) {n : Nat}
    (short : n ≤ maxMpsDatamsgQlen) :
    let s := exec Reception.step (.start mem) (reads q msg n)
    s.Sound ∧ s.fifo q = [] ∧ ∃ queued, (s.rcvMsgQ q).Holds queued ∧ queued.length = n := by
  induction n with
  | zero => exact ⟨reception_start_sound mem, rfl, [], init_holds (mem q), rfl⟩
  | succ n ih =>
    obtain ⟨sound, empty, queued, holds, counted⟩ := ih (Nat.le_of_succ_le short)
    have free : queued.length < maxMpsDatamsgQlen := by omega
    have room : mpsDatamsgIsQFull ((exec Reception.step (.start mem) (reads q msg n)).rcvMsgQ q) = false := by
      rw [← Bool.not_eq_true, isQFull_iff holds]
      exact Nat.ne_of_lt free
    rw [exec_reads_succ, mbxReadMsg_arrived empty]
    refine ⟨receive_room sound msg room, empty, _, receive_holds holds free msg, ?_⟩
    rw [List.length_append, List.length_singleton, counted]

/-- The message after those is lost, and what it has in place of a buffer address is released. -/
theorem reads_overflow (mem : RcvQ → MpsDatamsgList MsgRecord) (q : RcvQ) (msg : MpsDataMessage) :
    let s := exec Reception.step (.start mem) (reads q msg (maxMpsDatamsgQlen + 1))
    ¬ s.Conserved ∧ msg ∈ s.released := by
  obtain ⟨sound, empty, queued, holds, counted⟩ := reads_fill mem q msg (Nat.le_refl maxMpsDatamsgQlen)
  rw [exec_reads_succ, mbxReadMsg_arrived empty]
  refine ⟨receive_full sound msg ((isQFull_iff holds).mpr counted), ?_⟩
  rw [Reception.receive, enqueue_full holds counted]
  exact List.mem_append_right _ List.mem_cons_self

/-- A request of CPU1 for a socket buffer of 1600 bytes. -/
def skbRequest : MpsDataMessage := { msgType := 0x03, msgSeqno := 0, msgCmd := 0x206, msgBufAddr := 1600 }

/-- The 1025th request that no tasklet has taken is neither queued nor freed, and the number of bytes it asks for is
released as a socket buffer. -/
theorem unread_requests_leak :
    let s := exec Reception.step (.start fun _ => { circularBuf := fun _ => none, rpos := 0, wpos := 0 })
      (reads .cmd skbRequest (maxMpsDatamsgQlen + 1))
    ¬ s.Conserved ∧ skbRequest ∈ s.released ∧ ¬ skbRequest.CarriesData := by
  obtain ⟨lost, released⟩ :=
    reads_overflow (fun _ => { circularBuf := fun _ => none, rpos := 0, wpos := 0 }) .cmd skbRequest
  refine ⟨lost, released, ?_⟩
  intro ⟨carries, _⟩
  revert carries
  decide

end TwinpassGateway.Mps
