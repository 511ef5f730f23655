import TwinpassGateway.Mps.Mitigation
import TwinpassGateway.Mps.Reception
import TwinpassGateway.Mps.SendOutcome

/-!
Messages on their way between the two CPUs, both ways at once: the mailbox, the interrupt and its handler, the ring, the
tasklet, the callback. The calls and the handlers of both CPUs run in any order.
-/

namespace TwinpassGateway.Mps

open Foundation

/-! ### Mailboxes and interrupts -/

def Mbx.reader : Mbx → MpsCpuId
  | .wifi0Upstrm | .commandUpstrm => .cpu0
  | .wifi1Dwstrm | .commandDwstrm => .cpu1

def Mbx.writer : Mbx → MpsCpuId
  | .wifi0Upstrm | .commandUpstrm => .cpu1
  | .wifi1Dwstrm | .commandDwstrm => .cpu0

/-- `ifx_mpsdrv_cmd0_irq`, `ifx_mpsdrv_data1_irq` and `ifx_mpsdrv_cmd1_irq`. -/
inductive MpsIrq where
  | cmd0
  | data1
  | cmd1

def MpsIrq.cpuId : MpsIrq → MpsCpuId
  | .cmd0 => .cpu0
  | .data1 | .cmd1 => .cpu1

def MpsIrq.mailboxes : MpsIrq → List Mbx
  | .cmd0 => [.wifi0Upstrm, .commandUpstrm]
  | .data1 => [.wifi1Dwstrm]
  | .cmd1 => [.commandDwstrm]

/-! ### Copied messages -/

def mpsDataMessageWords : Nat := 6

/-- The `memcpy` of the readers: always a whole `mps_data_message`. -/
def MpsFifo.dataMessage (f : MpsFifo) (off : Nat) : List U32 :=
  (List.range mpsDataMessageWords).map fun i => f.mem (off + i)

def MpsDataMessage.ofWords (ws : List U32) : MpsDataMessage :=
  { msgType := (ws.getD 0 0).extractLsb' 24 8
    msgSeqno := (ws.getD 0 0).extractLsb' 16 8
    msgCmd := (ws.getD 0 0).extractLsb' 0 16
    msgBufAddr := ws.getD 2 0 }

def deliverWords (tables : CallbackTables) (ws : List U32) : Delivery :=
  deliver tables (MpsDataMessage.ofWords ws).msgSeqno (MpsDataMessage.ofWords ws).dataCmd

/-! ### The system -/

inductive Tasklet where
  | idle
  | looking
  /-- The callback has been called, the record is freed next. -/
  | calling (pMsg : List U32)

structure DualCore where
  dev : MpsDevice
  /-- The calls of `ifx_mpsdrv_mbx_send` that have written their message and have not come to the interrupt, by the type
  of their message. -/
  signalling : Mbx → List Nat := fun _ => []
  /-- The interrupt mitigation of each CPU, `none` where it is not compiled in. -/
  mitigation : MpsCpuId → Option Mitigation
  /-- The bit of the mailbox in the interrupt register of its reader. -/
  status : Mbx → Bool := fun _ => false
  /-- The mailboxes that the interrupt handler of a CPU has still to read, the first of them at work. -/
  handler : MpsCpuId → List Mbx := fun _ => []
  numMsg : MpsCpuId → Nat := fun _ => 0
  rcvMsgQ : Mbx → MpsDatamsgList (List U32)
  scheduled : Mbx → Bool := fun _ => false
  tasklet : Mbx → Tasklet := fun _ => .idle
  tables : MpsCpuId → CallbackTables := fun _ => .start
  /-- The last reading of the mailbox was given up for lack of memory. -/
  starved : Mbx → Bool := fun _ => false
  /-- The messages whose sending has succeeded, ready bit set. -/
  sent : Mbx → List (List U32) := fun _ => []
  delivered : Mbx → List (List U32 × Delivery) := fun _ => []

/-- Both drivers are loaded, the mailboxes are cleared. The rings are initialised whatever they held. -/
def DualCore.start (size : Mbx → Nat) (size_lt : ∀ mbx, size mbx < 2 ^ 32) (mitigation : MpsCpuId → Option Mitigation)
    (mem : Mbx → MpsDatamsgList (List U32)) : DualCore :=
  { dev := .start size size_lt
    mitigation
    rcvMsgQ := fun mbx => mpsDatamsgQueueInit (mem mbx) }

namespace DualCore

def raise (s : DualCore) (mbx : Mbx) : DualCore := { s with status := Function.update s.status mbx true }

/-- `ifx_mpsdrv_mbx_send` up to the interrupt. For the other CPU the stores of one send are one step. -/
def send (s : DualCore) (cpuId : MpsCpuId) (pMsg : List U32) : DualCore :=
  let call := ifxMpsdrvMbxSend s.dev cpuId pMsg
  let s := { s with dev := s.dev.afterSend call }
  match call.result, call.mbx with
  | .ok, some mbx =>
    { s with
      signalling := Function.update s.signalling mbx (s.signalling mbx ++ [msgType pMsg])
      sent := Function.update s.sent mbx (s.sent mbx ++ [markReady pMsg]) }
  | _, _ => s

def mitigationEvent (count : U32) (type : Nat) : Mitigation.Event :=
  if type = 0x01 ∨ type = 0x02 then .data count else if type = 0x07 ∨ type = 0x08 then .app else .command

def signal (s : DualCore) (mbx : Mbx) (i : Nat) (count : U32) : DualCore :=
  match (s.signalling mbx)[i]? with
  | none => s
  | some type =>
    let s := { s with signalling := Function.update s.signalling mbx ((s.signalling mbx).eraseIdx i) }
    match s.mitigation mbx.writer with
    | none => s.raise mbx
    | some m =>
      let (outcome, m) := m.handle (mitigationEvent count type)
      let s := { s with mitigation := Function.update s.mitigation mbx.writer (some m) }
      if outcome = .deferred then s else s.raise mbx

/-- `intr_coalesce_timer_handler`. -/
def timer (s : DualCore) (cpuId : MpsCpuId) (count : U32) : DualCore :=
  match s.mitigation cpuId with
  | none => s
  | some m =>
    let (outcome, m) := m.handle (.timer count)
    let s := { s with mitigation := Function.update s.mitigation cpuId (some m) }
    if outcome = .signalled then s.raise (dataMbx cpuId) else s

/-- An interrupt that is pending on a CPU that is not in a handler: the status is read and acknowledged. -/
def enter (s : DualCore) (irq : MpsIrq) : DualCore :=
  match s.handler irq.cpuId with
  | _ :: _ => s
  | [] =>
    { s with
      status := fun mbx => s.status mbx && mbx ∉ irq.mailboxes
      handler := Function.update s.handler irq.cpuId (irq.mailboxes.filter s.status) }

/-- The handler has done with a mailbox, and schedules the tasklet if it has read something. -/
def leave (s : DualCore) (mbx : Mbx) (rest : List Mbx) : DualCore :=
  { s with
    scheduled := Function.update s.scheduled mbx (s.scheduled mbx || s.numMsg mbx.reader ≠ 0)
    handler := Function.update s.handler mbx.reader rest
    numMsg := Function.update s.numMsg mbx.reader 0 }

/-- One turn of the loop of `_ifx_mpsdrv_mbx_read_usdMsg` or a sibling, and what follows when it ends. -/
def read (s : DualCore) (cpuId : MpsCpuId) (granted : Bool) : DualCore :=
  match s.handler cpuId with
  | [] => s
  | mbx :: rest =>
    let (some_, f) := ifxMpsdrvFifoNotEmpty (s.dev mbx)
    let s := { s with dev := Function.update s.dev mbx f }
    if some_ = false then ({ s with starved := Function.update s.starved mbx false }).leave mbx rest
    else
      match ifxMpsdrvFifoRead f with
      | (none, f) => { s with dev := Function.update s.dev mbx f }
      | (some off, f) =>
        if granted then
          let (_, ring, _) := mpsDatamsgEnqueueTail (f.dataMessage off) (some (s.rcvMsgQ mbx))
          { s with
            dev := Function.update s.dev mbx (ifxMpsdrvFifoReadPtrInc f (msg4bytes (f.val1 off)))
            rcvMsgQ := Function.update s.rcvMsgQ mbx (ring.getD (s.rcvMsgQ mbx))
            numMsg := Function.update s.numMsg cpuId (s.numMsg cpuId + 1) }
        else
          ({ s with
            dev := Function.update s.dev mbx f
            starved := Function.update s.starved mbx true }).leave mbx rest

def run (s : DualCore) (mbx : Mbx) : DualCore :=
  match s.tasklet mbx, s.scheduled mbx with
  | .idle, true =>
    { s with
      scheduled := Function.update s.scheduled mbx false
      tasklet := Function.update s.tasklet mbx .looking }
  | _, _ => s

def look (s : DualCore) (mbx : Mbx) : DualCore :=
  match s.tasklet mbx with
  | .looking =>
    let (pMsg, ring) := mpsDatamsgDequeueHead (some (s.rcvMsgQ mbx))
    { s with
      rcvMsgQ := Function.update s.rcvMsgQ mbx (ring.getD (s.rcvMsgQ mbx))
      tasklet := Function.update s.tasklet mbx (pMsg.elim .idle .calling) }
  | _ => s

def finish (s : DualCore) (mbx : Mbx) : DualCore :=
  match s.tasklet mbx with
  | .calling pMsg =>
    { s with
      tasklet := Function.update s.tasklet mbx .looking
      delivered :=
        Function.update s.delivered mbx (s.delivered mbx ++ [(pMsg, deliverWords (s.tables mbx.reader) pMsg)]) }
  | _ => s

end DualCore

inductive DualCoreEvent where
  | send (cpuId : MpsCpuId) (pMsg : List U32)
  | signal (mbx : Mbx) (i : Nat) (count : U32)
  | timer (cpuId : MpsCpuId) (count : U32)
  | enter (irq : MpsIrq)
  /-- `kmalloc` gives memory, or not. -/
  | read (cpuId : MpsCpuId) (granted : Bool)
  | run (mbx : Mbx)
  | look (mbx : Mbx)
  | finish (mbx : Mbx)
  | register (cpuId : MpsCpuId) (seq : U8) (callback : Option Nat)
  | unregister (cpuId : MpsCpuId) (seq : U8)

def DualCore.step (s : DualCore) : DualCoreEvent → DualCore
  | .send cpuId pMsg => s.send cpuId pMsg
  | .signal mbx i count => s.signal mbx i count
  | .timer cpuId count => s.timer cpuId count
  | .enter irq => s.enter irq
  | .read cpuId granted => s.read cpuId granted
  | .run mbx => s.run mbx
  | .look mbx => s.look mbx
  | .finish mbx => s.finish mbx
  | .register cpuId seq callback =>
    { s with tables := Function.update s.tables cpuId (mpsRegisterCallback (s.tables cpuId) seq callback).2 }
  | .unregister cpuId seq =>
    { s with tables := Function.update s.tables cpuId (mpsUnregisterCallback (s.tables cpuId) seq).2 }

/-! ### Where a message is -/

/-- A record has the words of the message, as many as both have; the header is among them. -/
structure Copied (ws m : List U32) : Prop where
  words : ws.take m.length = m.take mpsDataMessageWords
  header : 2 ≤ m.length

def Tasklet.inHand : Tasklet → List (List U32)
  | .calling pMsg => [pMsg]
  | _ => []

namespace DualCore

def messages (s : DualCore) (mbx : Mbx) : List (List U32) := (unread (s.dev mbx)).map Prod.snd

def deferred (s : DualCore) (mbx : Mbx) : Nat :=
  if mbx = dataMbx mbx.writer then (s.mitigation mbx.writer).elim 0 Mitigation.bklog else 0

def Signalled (s : DualCore) (mbx : Mbx) : Prop :=
  s.signalling mbx ≠ [] ∨ s.deferred mbx ≠ 0 ∨ s.status mbx = true ∨ mbx ∈ s.handler mbx.reader

def Scheduled (s : DualCore) (mbx : Mbx) : Prop :=
  (s.handler mbx.reader).head? = some mbx ∧ s.numMsg mbx.reader ≠ 0 ∨ s.scheduled mbx = true ∨ s.tasklet mbx ≠ .idle

structure Passes (s : DualCore) (mbx : Mbx) (queued : List (List U32)) : Prop where
  ring : (s.rcvMsgQ mbx).Holds queued
  order : ∃ passed, List.Forall₂ Copied ((s.delivered mbx).map Prod.fst ++ (s.tasklet mbx).inHand ++ queued) passed ∧
    s.sent mbx = passed ++ s.messages mbx
  signalled : s.messages mbx ≠ [] → s.Signalled mbx ∨ s.starved mbx = true
  scheduled : queued ≠ [] → s.Scheduled mbx

structure Sound (s : DualCore) : Prop where
  dev : s.dev.Queued
  passes : ∀ mbx, ∃ queued, s.Passes mbx queued
  types : ∀ mbx, ∀ type ∈ s.signalling mbx, (mbxSelect mbx.writer type).map Prod.fst = some mbx
  handlers : ∀ cpuId, ∀ mbx ∈ s.handler cpuId, mbx.reader = cpuId

/-- Messages are sent as their headers say, and none is copied while its ring is full. -/
def Allowed (s : DualCore) : DualCoreEvent → Prop
  | .send _ pMsg => FramedMessage pMsg
  | .read cpuId granted => granted = true → ∀ mbx, (s.handler cpuId).head? = some mbx →
      (ifxMpsdrvFifoNotEmpty (s.dev mbx)).1 = true → mpsDatamsgIsQFull (s.rcvMsgQ mbx) = false
  | _ => True

end DualCore

/-! ### Copies -/

theorem dataMessage_copied {f : MpsFifo} {off : Nat} {m : List U32} (laid : Holds f.mem off m) (header : 2 ≤ m.length) :
    Copied (f.dataMessage off) m := by
  refine ⟨List.ext_getElem? fun i => ?_, header⟩
  rw [List.getElem?_take, List.getElem?_take]
  by_cases inside : i < m.length
  · by_cases copied : i < mpsDataMessageWords
    · rw [if_pos inside, if_pos copied, List.getElem?_eq_getElem inside, ← laid i inside, MpsFifo.dataMessage,
        List.getElem?_map, List.getElem?_range copied]
      rfl
    · rw [if_pos inside, if_neg copied, MpsFifo.dataMessage, List.getElem?_eq_none]
      rw [List.length_map, List.length_range]
      exact Nat.le_of_not_lt copied
  · rw [if_neg inside]
    split
    · exact (List.getElem?_eq_none (Nat.le_of_not_lt inside)).symm
    · rfl

theorem Copied.first {ws m : List U32} (copied : Copied ws m) : ws.getD 0 0 = m.getD 0 0 := by
  have same := congrArg (fun xs => xs[0]?) copied.words
  simp only [List.getElem?_take] at same
  rw [if_pos (Nat.lt_of_lt_of_le Nat.zero_lt_two copied.header), if_pos (by decide)] at same
  rw [List.getD_eq_getElem?_getD, same, ← List.getD_eq_getElem?_getD]

theorem Copied.number {ws m : List U32} (copied : Copied ws m) :
    (MpsDataMessage.ofWords ws).msgSeqno = (MpsDataMessage.ofWords m).msgSeqno := by
  unfold MpsDataMessage.ofWords
  rw [copied.first]

/-- A record leads to the callback of its message. -/
theorem Copied.callback {ws m : List U32} (copied : Copied ws m) (tables : CallbackTables) :
    deliverWords tables ws = deliverWords tables m := by
  unfold deliverWords MpsDataMessage.ofWords MpsDataMessage.dataCmd
  rw [copied.first]

/-! ### Reading a mailbox -/

theorem notEmpty_nil {f : MpsFifo} (h : f.Represents []) : ifxMpsdrvFifoNotEmpty f = (false, settle f) := by
  obtain ⟨_, settled⟩ := settle_represents h
  exact Prod.ext (settled.1 rfl) rfl

theorem notEmpty_cons {f : MpsFifo} {m : List U32} {q : List (List U32)} (h : f.Represents (m :: q)) :
    ifxMpsdrvFifoNotEmpty f = (true, settle f) := by
  obtain ⟨_, settled⟩ := settle_represents h
  have laid : Holds (settle f).mem (settle f).preadOff [m].flatten := by simpa using settled.2 m q rfl
  refine Prod.ext ?_ rfl
  show msgReady ((settle f).val1 (settle f).preadOff) = true
  rw [holds_header (h.1 m List.mem_cons_self) laid]
  exact (h.1 m List.mem_cons_self).ready

/-- What a reader does with a mailbox in which there is a message. -/
theorem read_message {f : MpsFifo} {m : List U32} {q : List (List U32)} (h : f.Represents (m :: q)) :
    ∃ off f', ifxMpsdrvFifoRead f = (some off, f') ∧ f'.Represents (m :: q) ∧ Copied (f'.dataMessage off) m ∧
      (ifxMpsdrvFifoReadPtrInc f' (msg4bytes (f'.val1 off))).Represents q := by
  obtain ⟨represents, settled⟩ := settle_represents h
  have e := h.1 m List.mem_cons_self
  have held := settled.2 m q rfl
  have laid : Holds (settle f).mem (settle f).preadOff [m].flatten := by simpa using held
  refine ⟨_, _, (read_cons h).1, represents, dataMessage_copied held e.two, ?_⟩
  rw [holds_header e laid, e.words]
  exact readPtrInc_represents h

/-! ### Events -/

namespace DualCore

variable {s s' : DualCore} {mbx other : Mbx} {queued : List (List U32)}

theorem Passes.frame (here : s.Passes mbx queued) (messages : s'.messages mbx = s.messages mbx)
    (ring : s'.rcvMsgQ mbx = s.rcvMsgQ mbx) (hand : (s'.tasklet mbx).inHand = (s.tasklet mbx).inHand)
    (delivered : s'.delivered mbx = s.delivered mbx) (sent : s'.sent mbx = s.sent mbx)
    (signalled : s.Signalled mbx ∨ s.starved mbx = true → s'.Signalled mbx ∨ s'.starved mbx = true)
    (scheduled : s.Scheduled mbx → s'.Scheduled mbx) : s'.Passes mbx queued := by
  obtain ⟨holds, order, wakes, runs⟩ := here
  refine ⟨ring ▸ holds, ?_, ?_, fun some_ => scheduled (runs some_)⟩
  · rw [delivered, hand, sent, messages]
    exact order
  · rw [messages]
    exact fun some_ => signalled (wakes some_)

theorem Sound.of_passes (sound : s.Sound) (dev : s'.dev = s.dev) (signalling : s'.signalling = s.signalling)
    (handler : s'.handler = s.handler) (passes : ∀ mbx, ∃ queued, s'.Passes mbx queued) : s'.Sound := by
  refine ⟨dev ▸ sound.dev, passes, ?_, ?_⟩
  · rw [signalling]
    exact sound.types
  · rw [handler]
    exact sound.handlers

theorem target_writer {cpuId : MpsCpuId} {pMsg : List U32} (aim : target cpuId pMsg = some mbx) : mbx.writer = cpuId := by
  unfold target mbxSelect at aim
  cases cpuId <;> split at aim <;> cases aim <;> rfl

theorem types_data {type : Nat} (data : type = 0x01 ∨ type = 0x02)
    (selected : (mbxSelect mbx.writer type).map Prod.fst = some mbx) : mbx = dataMbx mbx.writer := by
  rcases data with rfl | rfl <;> cases mbx <;> first | rfl | cases selected

/-! #### Sending -/

/-- A call puts its message into one mailbox, and signals it later; or it changes nothing that can be read. -/
theorem send_cases (sound : s.Sound) {cpuId : MpsCpuId} {pMsg : List U32} (framed : FramedMessage pMsg) :
    (s.send cpuId pMsg).dev.Queued ∧
      ((∃ d own, target cpuId pMsg = some own ∧ s.send cpuId pMsg =
          { s with
            dev := d
            signalling := Function.update s.signalling own (s.signalling own ++ [msgType pMsg])
            sent := Function.update s.sent own (s.sent own ++ [markReady pMsg]) } ∧
          ∀ mbx, (unread (d mbx)).map Prod.snd = s.messages mbx ++ if mbx = own then [markReady pMsg] else []) ∨
        ∃ d, s.send cpuId pMsg = { s with dev := d } ∧ ∀ mbx, (unread (d mbx)).map Prod.snd = s.messages mbx) := by
  have queued : (s.dev.afterSend (ifxMpsdrvMbxSend s.dev cpuId pMsg)).Queued := afterSend_queued sound.dev framed
  have cases' : SendCases { device := s.dev } cpuId pMsg (({ device := s.dev } : MpsSender).mbxSend cpuId pMsg) :=
    mbxSend_cases cpuId sound.dev framed
  have place : (ifxMpsdrvMbxSend s.dev cpuId pMsg).mbx = target cpuId pMsg := send_mbx s.dev cpuId pMsg
  unfold send
  dsimp only
  unfold MpsSender.mbxSend at cases'
  dsimp only at cases'
  generalize ifxMpsdrvMbxSend s.dev cpuId pMsg = call at *
  generalize same : (call.result.retval, ({ device := s.dev.afterSend call } : MpsSender)) = outcome at cases'
  cases cases' with
  | sent own d aim room put =>
    obtain ⟨ok, device⟩ := Prod.mk.inj same
    have result : call.result = .ok := by
      cases returned : call.result with
      | ok => rfl
      | _ =>
        rw [returned] at ok
        exact absurd ok (by decide)
    rw [result, place, aim]
    refine ⟨queued, Or.inl ⟨_, own, rfl, rfl, ?_⟩⟩
    rw [show s.dev.afterSend call = d from congrArg MpsSender.device device]
    exact put
  | refused retval d failed full unchanged =>
    obtain ⟨returned, device⟩ := Prod.mk.inj same
    have result : call.result ≠ .ok := by
      intro ok
      rw [ok] at returned
      exact failed returned.symm
    have kept : ∀ mbx, (unread (s.dev.afterSend call mbx)).map Prod.snd = s.messages mbx := by
      rw [show s.dev.afterSend call = d from congrArg MpsSender.device device]
      exact unchanged
    split
    · exact absurd ‹_› result
    · exact ⟨queued, Or.inr ⟨_, rfl, kept⟩⟩

theorem send_sound (sound : s.Sound) {cpuId : MpsCpuId} {pMsg : List U32} (framed : FramedMessage pMsg) :
    (s.send cpuId pMsg).Sound := by
  obtain ⟨queued, ⟨d, own, aim, same, put⟩ | ⟨d, same, kept⟩⟩ := send_cases sound framed
  · rw [same] at queued ⊢
    refine ⟨queued, fun mbx => ?_, fun mbx type member => ?_, sound.handlers⟩
    · obtain ⟨items, here⟩ := sound.passes mbx
      refine ⟨items, ?_⟩
      by_cases there : mbx = own
      · subst there
        obtain ⟨passed, copies, sent⟩ := here.order
        refine ⟨here.ring, ⟨passed, copies, ?_⟩, fun _ => Or.inl (Or.inl ?_), here.scheduled⟩
        · show Function.update s.sent mbx _ mbx = passed ++ (unread (d mbx)).map Prod.snd
          rw [Function.update_self, put mbx, if_pos rfl, sent, List.append_assoc]
        · show Function.update s.signalling mbx _ mbx ≠ []
          rw [Function.update_self]
          exact List.append_ne_nil_of_right_ne_nil _ (List.cons_ne_nil _ _)
      · have signalling : Function.update s.signalling own (s.signalling own ++ [msgType pMsg]) mbx = s.signalling mbx :=
          Function.update_of_ne there _ _
        refine here.frame ?_ rfl rfl rfl (Function.update_of_ne there _ _) (fun wakes => ?_) id
        · exact (put mbx).trans (by rw [if_neg there, List.append_nil])
        · unfold Signalled
          dsimp only
          rw [signalling]
          exact wakes
    · dsimp only at member ⊢
      by_cases there : mbx = own
      · subst there
        rw [Function.update_self] at member
        rcases List.mem_append.mp member with old | new
        · exact sound.types mbx type old
        · rw [List.mem_singleton.mp new, target_writer aim]
          exact aim
      · rw [Function.update_of_ne there] at member
        exact sound.types mbx type member
  · rw [same] at queued ⊢
    refine ⟨queued, fun mbx => ?_, sound.types, sound.handlers⟩
    obtain ⟨items, here⟩ := sound.passes mbx
    exact ⟨items, here.frame (kept mbx) rfl rfl rfl rfl id id⟩

/-! #### Interrupts -/

/-- Nothing but what leads to an interrupt changes. -/
theorem Sound.resignalled (sound : s.Sound) {signalling : Mbx → List Nat} {mitigation : MpsCpuId → Option Mitigation}
    {status : Mbx → Bool} (calls : ∀ mbx, signalling mbx ⊆ s.signalling mbx)
    (wakes : ∀ mbx, s.Signalled mbx → { s with signalling, mitigation, status }.Signalled mbx) :
    { s with signalling, mitigation, status }.Sound := by
  refine ⟨sound.dev, fun mbx => ?_, fun mbx type member => sound.types mbx type (calls mbx member), sound.handlers⟩
  obtain ⟨items, here⟩ := sound.passes mbx
  refine ⟨items, here.frame rfl rfl rfl rfl rfl (fun before => ?_) id⟩
  exact before.imp_left (wakes mbx)

theorem signalled_other {signalling : Mbx → List Nat} {mitigation : MpsCpuId → Option Mitigation} {status : Mbx → Bool}
    (calls : signalling mbx = s.signalling mbx)
    (held : { s with signalling, mitigation, status }.deferred mbx = s.deferred mbx)
    (bit : s.status mbx = true → status mbx = true) (wakes : s.Signalled mbx) :
    { s with signalling, mitigation, status }.Signalled mbx := by
  rcases wakes with waiting | kept | pending | reads
  · exact Or.inl (fun none => waiting (calls.symm.trans none))
  · exact Or.inr (Or.inl fun zero => kept (held.symm.trans zero))
  · exact Or.inr (Or.inr (Or.inl (bit pending)))
  · exact Or.inr (Or.inr (Or.inr reads))

theorem update_true {status : Mbx → Bool} (mbx : Mbx) (pending : status other = true) :
    Function.update status mbx true other = true := by
  by_cases here : other = mbx
  · rw [here, Function.update_self]
  · rw [Function.update_of_ne here, pending]

theorem erase_calls (mbx : Mbx) (i : Nat) (other : Mbx) :
    Function.update s.signalling mbx ((s.signalling mbx).eraseIdx i) other ⊆ s.signalling other := by
  by_cases here : other = mbx
  · subst here
    rw [Function.update_self]
    exact List.eraseIdx_subset
  · rw [Function.update_of_ne here]
    exact List.Subset.refl _

theorem handle_data (m : Mitigation) (count : U32) :
    (m.handle (.data count)).1 = .signalled ∧ (m.handle (.data count)).2.bklog = 0 ∨
      (m.handle (.data count)).1 = .deferred ∧ (m.handle (.data count)).2.bklog = m.bklog + 1 := by
  have told : m.handle (.data count) =
      (if (m.generateInterrupt count).1 then .signalled else .deferred, (m.generateInterrupt count).2) := rfl
  rw [told]
  rcases Mitigation.generateInterrupt_cases m count with fires | ⟨_, waits⟩
  · rw [fires]
    exact Or.inl ⟨rfl, rfl⟩
  · rw [waits]
    exact Or.inr ⟨rfl, rfl⟩

theorem handle_timer (m : Mitigation) (count : U32) : m.handle (.timer count) =
    if m.bklog ≠ 0 then (.signalled, { m with lastInterruptTime := count, bklog := 0 }) else (.nothing, m) := rfl

theorem deferred_same {m m' : Mitigation} {cpuId : MpsCpuId} (before : s.mitigation cpuId = some m)
    (after : s'.mitigation = Function.update s.mitigation cpuId (some m'))
    (kept : mbx ≠ dataMbx cpuId ∨ m'.bklog = m.bklog) : s'.deferred mbx = s.deferred mbx := by
  unfold deferred
  split
  · rename_i data
    rw [after]
    by_cases writer : mbx.writer = cpuId
    · rw [writer] at data ⊢
      rw [Function.update_self, before]
      exact kept.resolve_left fun apart => apart data
    · rw [Function.update_of_ne writer]
  · rfl

/-- Only data messages change what is held back, and they go to the data mailbox. -/
theorem handle_elsewhere {type : Nat} (known : (mbxSelect mbx.writer type).map Prod.fst = some mbx) {m : Mitigation}
    {count : U32} (apart : other ≠ mbx) :
    other ≠ dataMbx mbx.writer ∨ (m.handle (mitigationEvent count type)).2.bklog = m.bklog := by
  unfold mitigationEvent
  split
  · rename_i data
    exact Or.inl (types_data data known ▸ apart)
  · split <;> exact Or.inr rfl

/-- A message whose interrupt is held back is counted. -/
theorem handle_held {type : Nat} (known : (mbxSelect mbx.writer type).map Prod.fst = some mbx) {m : Mitigation}
    {count : U32} (holds : (m.handle (mitigationEvent count type)).1 = .deferred) :
    mbx = dataMbx mbx.writer ∧ (m.handle (mitigationEvent count type)).2.bklog = m.bklog + 1 := by
  unfold mitigationEvent at holds ⊢
  split at holds
  · rename_i data
    rw [if_pos data]
    rcases handle_data m count with ⟨signals, _⟩ | ⟨_, more⟩
    · rw [signals] at holds
      cases holds
    · exact ⟨types_data data known, more⟩
  · split at holds <;> cases holds

theorem signal_sound (sound : s.Sound) (mbx : Mbx) (i : Nat) (count : U32) : (s.signal mbx i count).Sound := by
  unfold signal
  cases call : (s.signalling mbx)[i]? with
  | none => exact sound
  | some type =>
    dsimp only
    have others {other : Mbx} (apart : other ≠ mbx) :
        Function.update s.signalling mbx ((s.signalling mbx).eraseIdx i) other = s.signalling other :=
      Function.update_of_ne apart _ _
    cases compiled : s.mitigation mbx.writer with
    | none =>
      refine sound.resignalled (erase_calls mbx i) fun other wakes => ?_
      by_cases here : other = mbx
      · exact Or.inr (Or.inr (Or.inl (by rw [here]; exact Function.update_self ..)))
      · exact signalled_other (others here) rfl (update_true mbx) wakes
    | some m =>
      dsimp only
      have known : (mbxSelect mbx.writer type).map Prod.fst = some mbx :=
        sound.types mbx type (List.mem_of_getElem? call)
      have elsewhere {other : Mbx} (apart : other ≠ mbx) :
          other ≠ dataMbx mbx.writer ∨ (m.handle (mitigationEvent count type)).2.bklog = m.bklog :=
        handle_elsewhere known apart
      by_cases holds : (m.handle (mitigationEvent count type)).1 = .deferred
      · rw [if_pos holds]
        refine sound.resignalled (erase_calls mbx i) fun other wakes => ?_
        by_cases here : other = mbx
        · refine Or.inr (Or.inl ?_)
          obtain ⟨data, more⟩ := handle_held known holds
          unfold deferred
          rw [here, if_pos data]
          dsimp only
          rw [Function.update_self]
          show (m.handle (mitigationEvent count type)).2.bklog ≠ 0
          omega
        · exact signalled_other (others here) (deferred_same compiled rfl (elsewhere here)) id wakes
      · rw [if_neg holds]
        refine sound.resignalled (erase_calls mbx i) fun other wakes => ?_
        by_cases here : other = mbx
        · exact Or.inr (Or.inr (Or.inl (by rw [here]; exact Function.update_self ..)))
        · exact signalled_other (others here) (deferred_same compiled rfl (elsewhere here)) (update_true mbx) wakes

theorem timer_sound (sound : s.Sound) (cpuId : MpsCpuId) (count : U32) : (s.timer cpuId count).Sound := by
  unfold timer
  cases compiled : s.mitigation cpuId with
  | none => exact sound
  | some m =>
    dsimp only
    by_cases signals : (m.handle (.timer count)).1 = .signalled
    · rw [if_pos signals]
      refine sound.resignalled (fun _ => List.Subset.refl _) fun other wakes => ?_
      by_cases here : other = dataMbx cpuId
      · exact Or.inr (Or.inr (Or.inl (by rw [here]; exact Function.update_self ..)))
      · exact signalled_other rfl (deferred_same compiled rfl (Or.inl here)) (update_true _) wakes
    · rw [if_neg signals]
      refine sound.resignalled (fun _ => List.Subset.refl _) fun other wakes => ?_
      have same : (m.handle (.timer count)).2 = m := by
        rw [handle_timer] at signals ⊢
        split at signals
        · exact absurd rfl signals
        · rw [if_neg ‹_›]
      exact signalled_other rfl (deferred_same compiled rfl (Or.inr (by rw [same]))) id wakes

theorem enter_sound (sound : s.Sound) (irq : MpsIrq) : (s.enter irq).Sound := by
  unfold enter
  cases idle : s.handler irq.cpuId with
  | cons mbx rest => exact sound
  | nil =>
    have reader : ∀ mbx ∈ irq.mailboxes, mbx.reader = irq.cpuId := by
      cases irq <;> decide
    refine ⟨sound.dev, fun mbx => ?_, sound.types, fun cpuId mbx member => ?_⟩
    · obtain ⟨items, here⟩ := sound.passes mbx
      refine ⟨items, here.frame rfl rfl rfl rfl rfl (fun before => before.imp_left fun wakes => ?_) fun runs => ?_⟩
      · rcases wakes with waiting | kept | pending | reads
        · exact Or.inl waiting
        · exact Or.inr (Or.inl kept)
        · by_cases due : mbx ∈ irq.mailboxes
          · refine Or.inr (Or.inr (Or.inr ?_))
            dsimp only
            rw [reader mbx due, Function.update_self]
            exact List.mem_filter.mpr ⟨due, pending⟩
          · refine Or.inr (Or.inr (Or.inl ?_))
            dsimp only
            rw [pending, decide_eq_true due]
            rfl
        · refine Or.inr (Or.inr (Or.inr ?_))
          dsimp only
          by_cases same : mbx.reader = irq.cpuId
          · rw [same, idle] at reads
            cases reads
          · rw [Function.update_of_ne same]
            exact reads
      · rcases runs with ⟨first, _⟩ | later
        · by_cases same : mbx.reader = irq.cpuId
          · rw [same, idle] at first
            cases first
          · refine Or.inl ?_
            dsimp only
            rw [Function.update_of_ne same]
            exact ⟨first, ‹_›⟩
        · exact Or.inr later
    · dsimp only at member
      by_cases same : cpuId = irq.cpuId
      · subst same
        rw [Function.update_self] at member
        exact reader mbx (List.mem_filter.mp member).1
      · rw [Function.update_of_ne same] at member
        exact sound.handlers cpuId mbx member

/-! #### The handlers -/

theorem messages_update {f : MpsFifo} {q : List (List U32)} (h : f.Represents q)
    (dev : s'.dev = Function.update s.dev mbx f) : s'.messages mbx = q := by
  unfold messages
  rw [dev, Function.update_self, represents_unread h]

theorem messages_other {f : MpsFifo} (dev : s'.dev = Function.update s.dev mbx f) (apart : other ≠ mbx) :
    s'.messages other = s.messages other := by
  unfold messages
  rw [dev, Function.update_of_ne apart]

/-- The handler looks for the next message, and notes whether it gives up. -/
theorem looked_sound (sound : s.Sound) {rest : List Mbx} (first : s.handler mbx.reader = mbx :: rest) {f : MpsFifo}
    (h : f.Represents (s.messages mbx)) (starved : Bool) :
    { s with dev := Function.update s.dev mbx f, starved := Function.update s.starved mbx starved }.Sound := by
  refine ⟨queued_update sound.dev h, fun other => ?_, sound.types, sound.handlers⟩
  obtain ⟨items, here⟩ := sound.passes other
  refine ⟨items, here.frame ?_ rfl rfl rfl rfl (fun before => ?_) id⟩
  · by_cases same : other = mbx
    · subst same
      exact messages_update h rfl
    · exact messages_other rfl same
  · by_cases same : other = mbx
    · subst same
      refine Or.inl (Or.inr (Or.inr (Or.inr ?_)))
      show other ∈ s.handler other.reader
      rw [first]
      exact List.mem_cons_self
    · refine before.imp id fun given => ?_
      show Function.update s.starved mbx starved other = true
      rw [Function.update_of_ne same]
      exact given

theorem leave_sound (sound : s.Sound) {rest : List Mbx} (first : s.handler mbx.reader = mbx :: rest)
    (done : s.messages mbx = [] ∨ s.starved mbx = true) : (s.leave mbx rest).Sound := by
  refine ⟨sound.dev, fun other => ?_, sound.types, fun cpuId other member => ?_⟩
  · obtain ⟨items, here⟩ := sound.passes other
    refine ⟨items, here.ring, here.order, fun some_ => ?_, fun some_ => ?_⟩
    · rcases here.signalled some_ with (waiting | kept | pending | reads) | starved
      · exact Or.inl (Or.inl waiting)
      · exact Or.inl (Or.inr (Or.inl kept))
      · exact Or.inl (Or.inr (Or.inr (Or.inl pending)))
      · by_cases same : other = mbx
        · subst same
          exact Or.inr (done.resolve_left some_)
        · refine Or.inl (Or.inr (Or.inr (Or.inr ?_)))
          show other ∈ Function.update s.handler mbx.reader rest other.reader
          by_cases cpu : other.reader = mbx.reader
          · rw [cpu, first] at reads
            rw [cpu, Function.update_self]
            exact (List.mem_cons.mp reads).resolve_left same
          · rw [Function.update_of_ne cpu]
            exact reads
      · exact Or.inr starved
    · rcases here.scheduled some_ with ⟨head, read⟩ | set | runs
      · by_cases cpu : other.reader = mbx.reader
        · rw [cpu, first] at head
          obtain rfl : mbx = other := Option.some.inj head
          refine Or.inr (Or.inl ?_)
          show Function.update s.scheduled mbx _ mbx = true
          rw [Function.update_self, decide_eq_true read, Bool.or_true]
        · refine Or.inl ?_
          show (Function.update s.handler mbx.reader rest other.reader).head? = some other ∧
            Function.update s.numMsg mbx.reader 0 other.reader ≠ 0
          rw [Function.update_of_ne cpu, Function.update_of_ne cpu]
          exact ⟨head, read⟩
      · refine Or.inr (Or.inl ?_)
        show Function.update s.scheduled mbx _ other = true
        by_cases same : other = mbx
        · subst same
          rw [Function.update_self, set, Bool.true_or]
        · rw [Function.update_of_ne same, set]
      · exact Or.inr (Or.inr runs)
  · have before : other ∈ s.handler cpuId := by
      by_cases cpu : cpuId = mbx.reader
      · subst cpu
        have member : other ∈ Function.update s.handler mbx.reader rest mbx.reader := member
        rw [Function.update_self] at member
        rw [first]
        exact List.mem_cons_of_mem _ member
      · have member : other ∈ Function.update s.handler mbx.reader rest cpuId := member
        rwa [Function.update_of_ne cpu] at member
    exact sound.handlers cpuId other before

theorem copy_sound (sound : s.Sound) {rest : List Mbx} (first : s.handler mbx.reader = mbx :: rest) {m ws : List U32}
    {q : List (List U32)} (messages : s.messages mbx = m :: q) (copied : Copied ws m) {f : MpsFifo}
    (h : f.Represents q) (free : mpsDatamsgIsQFull (s.rcvMsgQ mbx) = false) :
    { s with
      dev := Function.update s.dev mbx f
      rcvMsgQ := Function.update s.rcvMsgQ mbx
        ((mpsDatamsgEnqueueTail ws (some (s.rcvMsgQ mbx))).2.1.getD (s.rcvMsgQ mbx))
      numMsg := Function.update s.numMsg mbx.reader (s.numMsg mbx.reader + 1) }.Sound := by
  refine ⟨queued_update sound.dev h, fun other => ?_, sound.types, sound.handlers⟩
  obtain ⟨items, here⟩ := sound.passes other
  by_cases same : other = mbx
  · subst same
    have room : items.length < maxMpsDatamsgQlen := by
      refine lt_of_le_of_ne (length_le_qlen here.ring) fun full => ?_
      rw [(isQFull_iff here.ring).mpr full] at free
      exact Bool.noConfusion free
    obtain ⟨ring, entered, holds⟩ := enqueue_room here.ring room ws
    obtain ⟨passed, copies, sent⟩ := here.order
    refine ⟨items ++ [ws], ?_, ⟨passed ++ [m], ?_, ?_⟩, fun _ => ?_, fun _ => Or.inl ⟨?_, ?_⟩⟩
    · dsimp only
      rw [Function.update_self, entered]
      exact holds
    · rw [← List.append_assoc]
      exact List.rel_append copies (List.Forall₂.cons copied List.Forall₂.nil)
    · rw [messages] at sent
      show s.sent other = (passed ++ [m]) ++ (unread (Function.update s.dev other f other)).map Prod.snd
      rw [Function.update_self, represents_unread h, List.append_assoc]
      exact sent
    · refine Or.inl (Or.inr (Or.inr (Or.inr ?_)))
      show other ∈ s.handler other.reader
      rw [first]
      exact List.mem_cons_self
    · show (s.handler other.reader).head? = some other
      rw [first]
      rfl
    · show Function.update s.numMsg other.reader (s.numMsg other.reader + 1) other.reader ≠ 0
      rw [Function.update_self]
      exact Nat.succ_ne_zero _
  · refine ⟨items, here.frame (messages_other rfl same) (Function.update_of_ne same _ _) rfl rfl rfl id fun runs => ?_⟩
    rcases runs with ⟨head, read⟩ | later
    · refine Or.inl ⟨head, ?_⟩
      show Function.update s.numMsg mbx.reader _ other.reader ≠ 0
      by_cases cpu : other.reader = mbx.reader
      · rw [cpu, first] at head
        exact absurd (Option.some.inj head).symm same
      · rw [Function.update_of_ne cpu]
        exact read
    · exact Or.inr later

/-- What a turn of a handler does. -/
theorem read_cases (sound : s.Sound) {rest : List Mbx} (first : s.handler mbx.reader = mbx :: rest) (granted : Bool) :
    ∃ f : MpsFifo, f.Represents (s.messages mbx) ∧
      (s.messages mbx = [] ∧ s.read mbx.reader granted =
          { s with dev := Function.update s.dev mbx f, starved := Function.update s.starved mbx false }.leave mbx rest ∨
        (ifxMpsdrvFifoNotEmpty (s.dev mbx)).1 = true ∧ granted = false ∧ s.read mbx.reader granted =
          { s with dev := Function.update s.dev mbx f, starved := Function.update s.starved mbx true }.leave mbx rest ∨
        (ifxMpsdrvFifoNotEmpty (s.dev mbx)).1 = true ∧ granted = true ∧ ∃ m q ws, ∃ f' : MpsFifo,
          s.messages mbx = m :: q ∧ Copied ws m ∧ f'.Represents q ∧ s.read mbx.reader granted =
          { s with
            dev := Function.update s.dev mbx f'
            rcvMsgQ := Function.update s.rcvMsgQ mbx
              ((mpsDatamsgEnqueueTail ws (some (s.rcvMsgQ mbx))).2.1.getD (s.rcvMsgQ mbx))
            numMsg := Function.update s.numMsg mbx.reader (s.numMsg mbx.reader + 1) }) := by
  obtain ⟨q, h⟩ := sound.dev mbx
  have messages : s.messages mbx = q := represents_unread h
  have settled := (settle_represents h).1
  rw [messages]
  unfold read
  rw [first]
  cases q with
  | nil =>
    refine ⟨settle (s.dev mbx), settled, Or.inl ⟨rfl, ?_⟩⟩
    dsimp only
    rw [notEmpty_nil h]
    rfl
  | cons m q =>
    obtain ⟨off, f, found, represents, copied, moved⟩ := read_message settled
    refine ⟨f, represents, Or.inr ?_⟩
    dsimp only
    rw [notEmpty_cons h]
    dsimp only
    rw [if_neg Bool.noConfusion, found]
    cases granted with
    | false =>
      refine Or.inl ⟨rfl, rfl, ?_⟩
      dsimp only
      rw [if_neg Bool.noConfusion, Function.update_idem]
    | true =>
      refine Or.inr ⟨rfl, rfl, m, q, _, _, rfl, copied, moved, ?_⟩
      dsimp only
      rw [if_pos rfl, Function.update_idem]

theorem read_sound (sound : s.Sound) {cpuId : MpsCpuId} {granted : Bool} (allowed : s.Allowed (.read cpuId granted)) :
    (s.read cpuId granted).Sound := by
  cases pending : s.handler cpuId with
  | nil =>
    unfold read
    rw [pending]
    exact sound
  | cons mbx rest =>
    obtain rfl := sound.handlers cpuId mbx (by rw [pending]; exact List.mem_cons_self)
    obtain ⟨f, h, ⟨none, same⟩ | ⟨_, _, same⟩ | ⟨some_, ok, m, q, ws, f', messages, copied, moved, same⟩⟩ :=
      read_cases sound pending granted
    · rw [same]
      refine leave_sound (looked_sound sound pending h false) pending (Or.inl ?_)
      exact (messages_update (s := s) h rfl).trans none
    · rw [same]
      exact leave_sound (looked_sound sound pending h true) pending (Or.inr (Function.update_self ..))
    · rw [same]
      exact copy_sound sound pending messages copied moved (allowed ok mbx (by rw [pending]; rfl) some_)

/-! #### Tasklets -/

theorem run_sound (sound : s.Sound) (mbx : Mbx) : (s.run mbx).Sound := by
  unfold run
  split
  · rename_i idle _
    refine sound.of_passes rfl rfl rfl fun other => ?_
    obtain ⟨items, here⟩ := sound.passes other
    by_cases same : other = mbx
    · subst same
      refine ⟨items, here.frame rfl rfl ?_ rfl rfl id fun _ => Or.inr (Or.inr ?_)⟩
      · dsimp only
        rw [idle, Function.update_self]
        rfl
      · show Function.update s.tasklet other .looking other ≠ .idle
        rw [Function.update_self]
        exact Tasklet.noConfusion
    · refine ⟨items, here.frame rfl rfl ?_ rfl rfl id fun runs => ?_⟩
      · exact congrArg Tasklet.inHand (Function.update_of_ne same _ _)
      · unfold Scheduled
        dsimp only
        rw [Function.update_of_ne same, Function.update_of_ne same]
        exact runs
  · exact sound

theorem look_cases {items : List (List U32)} (holds : (s.rcvMsgQ mbx).Holds items) (looking : s.tasklet mbx = .looking) :
    ∃ ring, s.look mbx =
        { s with
          rcvMsgQ := Function.update s.rcvMsgQ mbx ring
          tasklet := Function.update s.tasklet mbx (items.head?.elim .idle .calling) } ∧
      ring.Holds items.tail := by
  unfold look
  rw [looking]
  cases items with
  | nil =>
    refine ⟨s.rcvMsgQ mbx, ?_, holds⟩
    dsimp only
    rw [dequeue_nil holds]
    rfl
  | cons ws items =>
    obtain ⟨ring, taken, left⟩ := dequeue_cons holds
    refine ⟨ring, ?_, left⟩
    dsimp only
    rw [taken]
    rfl

theorem look_sound (sound : s.Sound) (mbx : Mbx) : (s.look mbx).Sound := by
  cases state : s.tasklet mbx with
  | looking =>
    obtain ⟨items, here⟩ := sound.passes mbx
    obtain ⟨ring, same, holds⟩ := look_cases here.ring state
    rw [same]
    refine sound.of_passes rfl rfl rfl fun other => ?_
    by_cases there : other = mbx
    · subst there
      obtain ⟨passed, copies, sent⟩ := here.order
      rw [state] at copies
      refine ⟨items.tail, ?_, ⟨passed, ?_, sent⟩, here.signalled, fun some_ => Or.inr (Or.inr ?_)⟩
      · dsimp only
        rw [Function.update_self]
        exact holds
      · dsimp only
        rw [Function.update_self]
        cases items with
        | nil => exact copies
        | cons ws items =>
          rw [List.append_assoc]
          rwa [show Tasklet.looking.inHand = [] from rfl, List.append_nil] at copies
      · show Function.update s.tasklet other _ other ≠ .idle
        rw [Function.update_self]
        cases items with
        | nil => exact absurd rfl some_
        | cons ws items => exact Tasklet.noConfusion
    · obtain ⟨items', here'⟩ := sound.passes other
      refine ⟨items', here'.frame rfl (Function.update_of_ne there _ _) ?_ rfl rfl id fun runs => ?_⟩
      · exact congrArg Tasklet.inHand (Function.update_of_ne there _ _)
      · unfold Scheduled
        dsimp only
        rw [Function.update_of_ne there]
        exact runs
  | _ =>
    unfold look
    rw [state]
    exact sound

theorem finish_sound (sound : s.Sound) (mbx : Mbx) : (s.finish mbx).Sound := by
  unfold finish
  split
  · rename_i ws calling
    refine sound.of_passes rfl rfl rfl fun other => ?_
    obtain ⟨items, here⟩ := sound.passes other
    by_cases same : other = mbx
    · subst same
      obtain ⟨passed, copies, sent⟩ := here.order
      refine ⟨items, here.ring, ⟨passed, ?_, sent⟩, here.signalled, fun _ => Or.inr (Or.inr ?_)⟩
      · dsimp only
        rw [Function.update_self, Function.update_self, List.map_append]
        rw [calling] at copies
        rw [show Tasklet.looking.inHand = [] from rfl, List.append_nil]
        exact copies
      · show Function.update s.tasklet other .looking other ≠ .idle
        rw [Function.update_self]
        exact Tasklet.noConfusion
    · refine ⟨items, here.frame rfl rfl ?_ (Function.update_of_ne same _ _) rfl id fun runs => ?_⟩
      · exact congrArg Tasklet.inHand (Function.update_of_ne same _ _)
      · unfold Scheduled
        dsimp only
        rw [Function.update_of_ne same]
        exact runs
  · exact sound

/-! ### Runs -/

theorem start_sound {size : Mbx → Nat} (size_lt : ∀ mbx, size mbx < 2 ^ 32) (mitigation : MpsCpuId → Option Mitigation)
    (mem : Mbx → MpsDatamsgList (List U32)) : (start size size_lt mitigation mem).Sound := by
  refine ⟨start_queued size_lt, fun mbx => ⟨[], init_holds (mem mbx), ⟨[], List.Forall₂.nil, ?_⟩, ?_, nofun⟩,
    fun _ _ => nofun, fun _ _ => nofun⟩
  · exact (represents_unread (zeroed_represents (size_lt mbx))).symm
  · intro some_
    exact absurd (represents_unread (zeroed_represents (size_lt mbx))) some_

theorem tables_sound (sound : s.Sound) (tables : MpsCpuId → CallbackTables) : { s with tables }.Sound := by
  refine sound.of_passes rfl rfl rfl fun mbx => ?_
  obtain ⟨items, here⟩ := sound.passes mbx
  exact ⟨items, here.frame rfl rfl rfl rfl rfl id id⟩

theorem step_sound (s : DualCore) (e : DualCoreEvent) (sound : s.Sound) (allowed : s.Allowed e) : (s.step e).Sound := by
  cases e with
  | send cpuId pMsg => exact send_sound sound allowed
  | signal mbx i count => exact signal_sound sound mbx i count
  | timer cpuId count => exact timer_sound sound cpuId count
  | enter irq => exact enter_sound sound irq
  | read cpuId granted => exact read_sound sound allowed
  | run mbx => exact run_sound sound mbx
  | look mbx => exact look_sound sound mbx
  | finish mbx => exact finish_sound sound mbx
  | register cpuId seq callback => exact tables_sound sound _
  | unregister cpuId seq => exact tables_sound sound _

/-- Nothing is under way from the mailbox to its callback, and its last reading was not given up. -/
structure Quiet (s : DualCore) (mbx : Mbx) : Prop where
  calls : s.signalling mbx = []
  held : s.deferred mbx = 0
  status : s.status mbx = false
  handler : mbx ∉ s.handler mbx.reader
  fed : s.starved mbx = false
  scheduled : s.scheduled mbx = false
  tasklet : s.tasklet mbx = .idle

theorem Quiet.delivered (quiet : s.Quiet mbx) (here : s.Passes mbx queued) :
    List.Forall₂ Copied ((s.delivered mbx).map Prod.fst) (s.sent mbx) := by
  have none : s.messages mbx = [] := by
    by_contra some_
    rcases here.signalled some_ with (calls | held | status | reads) | starved
    · exact calls quiet.calls
    · exact held quiet.held
    · exact Bool.noConfusion (quiet.status.symm.trans status)
    · exact quiet.handler reads
    · exact Bool.noConfusion (quiet.fed.symm.trans starved)
  have empty : queued = [] := by
    by_contra some_
    rcases here.scheduled some_ with ⟨first, _⟩ | set | runs
    · exact quiet.handler (List.mem_of_head? first)
    · exact Bool.noConfusion (quiet.scheduled.symm.trans set)
    · exact runs quiet.tasklet
  obtain ⟨passed, copies, sent⟩ := here.order
  rw [none, List.append_nil] at sent
  rw [quiet.tasklet, empty, List.append_nil, show Tasklet.idle.inHand = [] from rfl, List.append_nil, ← sent] at copies
  exact copies

end DualCore

end TwinpassGateway.Mps
