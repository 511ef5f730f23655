import TwinpassGateway.Mps.FifoQueue

/-!
The mailboxes of the MPS device and their entry points `ifx_mpsdrv_mbx_send` and
`ifx_mpsdrv_mbx_rcv`. Both CPUs run the same code on the same four FIFOs.
-/

namespace TwinpassGateway.Mps

open Foundation

/-- `MPS_MSG_TYPE`, as `ifx_mpsdrv_mbx_rcv` takes it. -/
inductive MpsMsgType where
  | dataMsg
  | cmdMsg

inductive Mbx where
  | wifi0Upstrm
  | wifi1Dwstrm
  | commandUpstrm
  | commandDwstrm
  deriving DecidableEq

/-- The interrupt register a sender writes, and the value. -/
inductive Doorbell where
  | cpu0ToCpu1Irr (value : U32)
  | sad0sr (value : U32)

inductive SendResult where
  | ok
  | again
  | noMem
  | noMsg
  deriving DecidableEq

abbrev MpsDevice := Mbx → MpsFifo

/-- `mps_message.msg_type`. -/
def msgType (pMsg : List U32) : Nat := ((pMsg.getD 0 0).extractLsb' 24 8).toNat

/-- The FIFO and the interrupt that `ifx_mpsdrv_mbx_send` picks for a message type. -/
def mbxSelect (cpuId : MpsCpuId) (type : Nat) : Option (Mbx × Doorbell) :=
  match type with
  | 0x01 | 0x02 | 0x07 | 0x08 =>
    match cpuId with
    | .cpu0 => some (.wifi1Dwstrm, .cpu0ToCpu1Irr 0x20)
    | .cpu1 => some (.wifi0Upstrm, .sad0sr 0x2)
  | 0x03 | 0x04 | 0x05 | 0x06 | 0x09 | 0x0A =>
    match cpuId with
    | .cpu0 => some (.commandDwstrm, .cpu0ToCpu1Irr 0x10)
    | .cpu1 => some (.commandUpstrm, .sad0sr 0x1)
  | _ => none

/-- The FIFO `ifx_mpsdrv_mbx_rcv` looks at. -/
def rcvMbx : MpsCpuId → MpsMsgType → Mbx
  | .cpu0, .dataMsg => .wifi0Upstrm
  | .cpu0, .cmdMsg => .commandUpstrm
  | .cpu1, .dataMsg => .wifi1Dwstrm
  | .cpu1, .cmdMsg => .commandDwstrm

/-- What a call of `ifx_mpsdrv_mbx_send` does, its stores in program order. -/
structure MbxSend where
  result : SendResult
  /-- The caller's message as the call leaves it. -/
  pMsg : List U32
  mbx : Option Mbx := none
  stores : List Store := []
  doorbell : Option Doorbell := none

/-- `ifx_mpsdrv_mbx_send`. The message is marked ready in the caller's buffer, before the copy. -/
def ifxMpsdrvMbxSend (d : MpsDevice) (cpuId : MpsCpuId) (pMsg : List U32) : MbxSend :=
  let msgBytes := mpsMsghdrLen + msgLen (headerWord pMsg)
  match mbxSelect cpuId (msgType pMsg) with
  | none => { result := .noMsg, pMsg }
  | some (mbx, doorbell) =>
    if ifxMpsdrvFifoMemRequest (d mbx) msgBytes then
      match ifxMpsdrvFifoWrite (d mbx) (markReady pMsg) msgBytes with
      | (true, stores) => { result := .ok, pMsg := markReady pMsg, mbx, stores, doorbell }
      | (false, stores) => { result := .noMem, pMsg := markReady pMsg, mbx, stores }
    else { result := .again, pMsg, mbx }

def MpsDevice.afterSend (d : MpsDevice) (send : MbxSend) : MpsDevice :=
  match send.mbx with
  | none => d
  | some mbx => Function.update d mbx ((d mbx).applyAll send.stores)

/-- `ifx_mpsdrv_mbx_rcv`: the message copied out, if there is one, and the device afterwards. -/
def ifxMpsdrvMbxRcv (d : MpsDevice) (cpuId : MpsCpuId) (type : MpsMsgType) : Option (List U32) × MpsDevice :=
  let mbx := rcvMbx cpuId type
  match ifxMpsdrvFifoRead (d mbx) with
  | (none, f) => (none, Function.update d mbx f)
  | (some off, f) =>
    (some (f.message off), Function.update d mbx (ifxMpsdrvFifoReadPtrInc f (msg4bytes (f.val1 off))))

inductive MbxCall where
  | send (cpuId : MpsCpuId) (pMsg : List U32)
  | rcv (cpuId : MpsCpuId) (type : MpsMsgType)

/-- A message as the senders build it: as many words as its header announces, no wrap-around mark. -/
abbrev FramedMessage (pMsg : List U32) : Prop := Framed pMsg (mpsMsghdrLen + msgLen (headerWord pMsg))

def MbxCall.Framed : MbxCall → Prop
  | .send _ pMsg => FramedMessage pMsg
  | .rcv _ _ => True

def MpsDevice.step (d : MpsDevice) : MbxCall → MpsDevice
  | .send cpuId pMsg => d.afterSend (ifxMpsdrvMbxSend d cpuId pMsg)
  | .rcv cpuId type => (ifxMpsdrvMbxRcv d cpuId type).2

def MpsDevice.start (size : Mbx → Nat) (size_lt : ∀ mbx, size mbx < 2 ^ 32) : MpsDevice :=
  fun mbx => .zeroed (size mbx) (size_lt mbx)

/-! ### Every mailbox stays a queue -/

/-- Marking a message ready before the write changes nothing about its frame. -/
theorem Framed.markReady {data : List U32} {length : Nat} (wf : Mps.Framed data length) :
    Mps.Framed (markReady data) length := by
  obtain ⟨_, two, _⟩ := wf.entry
  have low : msgLen (headerWord (Mps.markReady data)) = msgLen (headerWord data) := by
    rw [headerWord_markReady two, msgLen_or]
  refine ⟨by rw [low, wf.announced], by rw [markReady_length, wf.covers], ?_⟩
  rw [headerWord_markReady two, msgNextWrapped_or, wf.notWrapped]

def MpsDevice.Queued (d : MpsDevice) : Prop := ∀ mbx, ∃ q, (d mbx).Represents q

theorem start_queued {size : Mbx → Nat} (size_lt : ∀ mbx, size mbx < 2 ^ 32) :
    (MpsDevice.start size size_lt).Queued :=
  fun mbx => ⟨[], zeroed_represents (size_lt mbx)⟩

theorem queued_update {d : MpsDevice} {mbx : Mbx} {f : MpsFifo} {q : List (List U32)} (inv : d.Queued)
    (h : f.Represents q) : MpsDevice.Queued (Function.update d mbx f) := by
  intro other
  by_cases same : other = mbx
  · subst same
    exact ⟨q, by rwa [Function.update_self]⟩
  · rw [Function.update_of_ne same]
    exact inv other

theorem send_mbx (d : MpsDevice) (cpuId : MpsCpuId) (pMsg : List U32) :
    (ifxMpsdrvMbxSend d cpuId pMsg).mbx = (mbxSelect cpuId (msgType pMsg)).map Prod.fst := by
  unfold ifxMpsdrvMbxSend
  cases mbxSelect cpuId (msgType pMsg) with
  | none => rfl
  | some target =>
    dsimp only
    split
    · split <;> rfl
    · rfl

theorem send_stores {d : MpsDevice} {cpuId : MpsCpuId} {pMsg : List U32} {mbx : Mbx}
    (chosen : (ifxMpsdrvMbxSend d cpuId pMsg).mbx = some mbx) :
    (ifxMpsdrvMbxSend d cpuId pMsg).stores =
      if ifxMpsdrvFifoMemRequest (d mbx) (mpsMsghdrLen + msgLen (headerWord pMsg)) then
        (ifxMpsdrvFifoWrite (d mbx) (markReady pMsg) (mpsMsghdrLen + msgLen (headerWord pMsg))).2
      else [] := by
  rw [send_mbx] at chosen
  obtain ⟨⟨_, doorbell⟩, selected, rfl⟩ := Option.map_eq_some_iff.mp chosen
  simp only [ifxMpsdrvMbxSend, selected]
  split
  · split <;> rename_i write <;> rw [write]
  · rfl

theorem afterSend_queued {d : MpsDevice} (inv : d.Queued) {cpuId : MpsCpuId} {pMsg : List U32}
    (wf : FramedMessage pMsg) : (d.afterSend (ifxMpsdrvMbxSend d cpuId pMsg)).Queued := by
  unfold MpsDevice.afterSend
  split
  · exact inv
  · rename_i mbx chosen
    obtain ⟨q, h⟩ := inv mbx
    obtain ⟨e, _, header, small, words⟩ := wf.markReady.entry
    rw [send_stores chosen]
    split
    · exact queued_update inv (write_represents h e header words (represents_sum h small))
    · exact queued_update inv h

theorem rcv_queued {d : MpsDevice} (inv : d.Queued) (cpuId : MpsCpuId) (type : MpsMsgType) :
    (ifxMpsdrvMbxRcv d cpuId type).2.Queued := by
  obtain ⟨q, h⟩ := inv (rcvMbx cpuId type)
  cases q with
  | nil =>
    simp only [ifxMpsdrvMbxRcv, read_nil h]
    exact queued_update inv (settle_represents h).1
  | cons m rest =>
    obtain ⟨found, message⟩ := read_cons h
    have settled := settle_represents h
    have e := h.1 m List.mem_cons_self
    have laid : Holds (settle (d (rcvMbx cpuId type))).mem (settle (d (rcvMbx cpuId type))).preadOff [m].flatten := by
      simpa using settled.2.2 m rest rfl
    simp only [ifxMpsdrvMbxRcv, found]
    rw [holds_header e laid, e.words]
    exact queued_update inv (readPtrInc_represents h)

theorem device_step_queued (d : MpsDevice) (c : MbxCall) (inv : d.Queued) (wf : c.Framed) : (d.step c).Queued := by
  cases c with
  | send cpuId pMsg => exact afterSend_queued inv wf
  | rcv cpuId type => exact rcv_queued inv cpuId type

theorem device_queued {size : Mbx → Nat} (size_lt : ∀ mbx, size mbx < 2 ^ 32) {calls : List MbxCall}
    (framed : ∀ c ∈ calls, c.Framed) : (exec MpsDevice.step (.start size size_lt) calls).Queued :=
  exec_invariant device_step_queued (start_queued size_lt) framed

end TwinpassGateway.Mps
