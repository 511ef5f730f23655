import TwinpassGateway.Mps.Publication

/-!
The send functions of the MPS driver, with and without the flow control of data messages, and what their results say
about the message.
-/

namespace TwinpassGateway.Mps

open Foundation

/-! ### Messages -/

/-- A message with an `mps_msg_buf` as its content, as far as its length goes. -/
def bufMessage (type seqno : U8) (cmd : BitVec 16) (msgBufAddr msgBufLen : U32) : List U32 :=
  [type ++ seqno ++ cmd, 8, msgBufAddr, msgBufLen]

/-- `mps_data_list`, an element of the backlog. -/
structure MpsDataList where
  serviceSequenceNumber : U8
  datapointer : U32
  len : U32
  deriving DecidableEq

def dataMessage (cpuId : MpsCpuId) (e : MpsDataList) : List U32 :=
  match cpuId with
  | .cpu0 => bufMessage 0x02 e.serviceSequenceNumber 0x101 e.datapointer e.len
  | .cpu1 => bufMessage 0x01 e.serviceSequenceNumber 0x201 e.datapointer e.len

/-- The length is that of `no` pointers. -/
def datalistMessage (cpuId : MpsCpuId) (serviceSequenceNumber : U8) (datalist no : U32) : List U32 :=
  match cpuId with
  | .cpu0 => bufMessage 0x02 serviceSequenceNumber 0x102 datalist (4 * no)
  | .cpu1 => bufMessage 0x01 serviceSequenceNumber 0x202 datalist (4 * no)

/-- Either CPU sends the downstream type. -/
def appMessage (cpuId : MpsCpuId) (serviceSequenceNumber : U8) (pmessage len : U32) : List U32 :=
  match cpuId with
  | .cpu0 => bufMessage 0x08 serviceSequenceNumber 0x103 pmessage len
  | .cpu1 => bufMessage 0x08 serviceSequenceNumber 0x203 pmessage len

/-! ### The send functions of one CPU -/

structure MpsSender where
  device : MpsDevice
  bklogMpsDataList : List MpsDataList := []
  bklogPkts : Int := 0
  bklogQLock : Int := 1

def MpsSender.start (size : Mbx → Nat) (size_lt : ∀ mbx, size mbx < 2 ^ 32) : MpsSender :=
  { device := .start size size_lt }

def efail : Int := -1

def SendResult.retval : SendResult → Int
  | .ok => 0
  | .again => -11
  | .noMem => -12
  | .noMsg => -35

/-- `ifx_mpsdrv_mbx_send` with the state around it. -/
def MpsSender.mbxSend (s : MpsSender) (cpuId : MpsCpuId) (pMsg : List U32) : Int × MpsSender :=
  let send := ifxMpsdrvMbxSend s.device cpuId pMsg
  (send.result.retval, { s with device := s.device.afterSend send })

/-- `ifx_mps_data_send2`, which is `ifx_mps_data_send` without flow control. -/
def ifxMpsDataSend2 (s : MpsSender) (cpuId : MpsCpuId) (e : MpsDataList) : Int × MpsSender :=
  let (retval, s) := s.mbxSend cpuId (dataMessage cpuId e)
  (if retval ≠ 0 then efail else 0, s)

def ifxMpsDatalistSend (s : MpsSender) (cpuId : MpsCpuId) (serviceSequenceNumber : U8) (datalist no : U32) :
    Int × MpsSender :=
  s.mbxSend cpuId (datalistMessage cpuId serviceSequenceNumber datalist no)

/-- The result of `ifx_mpsdrv_mbx_send` is not looked at. -/
def ifxMpsAppMessageSend (s : MpsSender) (cpuId : MpsCpuId) (serviceSequenceNumber : U8) (pmessage len : U32) :
    Int × MpsSender :=
  (0, (s.mbxSend cpuId (appMessage cpuId serviceSequenceNumber pmessage len)).2)

def ifxMpsDataEnqueue (s : MpsSender) (e : MpsDataList) (kmalloc : Bool) : Int × MpsSender :=
  if kmalloc then
    (0, { s with bklogMpsDataList := s.bklogMpsDataList ++ [e], bklogPkts := s.bklogPkts + 1 })
  else (efail, s)

/-- The loop of `ifx_mps_send_from_bklog_q`. The element it deletes is the first one. -/
def bklogLoop (cpuId : MpsCpuId) : List MpsDataList → MpsSender → MpsSender
  | [], s => s
  | e :: next, s =>
    let (retval, s) := ifxMpsDataSend2 s cpuId e
    if retval = 0 then
      bklogLoop cpuId next { s with bklogMpsDataList := s.bklogMpsDataList.tail, bklogPkts := s.bklogPkts - 1 }
    else s

def ifxMpsSendFromBklogQ (s : MpsSender) (cpuId : MpsCpuId) : Int × MpsSender :=
  let s := { s with bklogQLock := s.bklogQLock - 1 }
  if s.bklogQLock ≠ 0 then (efail, { s with bklogQLock := s.bklogQLock + 1 })
  else
    let s := bklogLoop cpuId s.bklogMpsDataList s
    (0, { s with bklogQLock := s.bklogQLock + 1 })

/-- `ifx_mps_data_send` with `CONFIG_MPS_FLOW_CONTROL`. -/
def ifxMpsDataSend (s : MpsSender) (cpuId : MpsCpuId) (e : MpsDataList) (kmalloc : Bool) : Int × MpsSender :=
  let (direct, s) := if s.bklogMpsDataList.isEmpty then ifxMpsDataSend2 s cpuId e else (efail, s)
  if direct = 0 then (0, s)
  else
    let (queued, s) := ifxMpsDataEnqueue s e kmalloc
    if queued = efail then (efail, s) else ifxMpsSendFromBklogQ s cpuId

/-- `flush_bklog_q`, which the timer does as well. -/
def flushBklogQ (s : MpsSender) (cpuId : MpsCpuId) : MpsSender :=
  if s.bklogPkts ≠ 0 then (ifxMpsSendFromBklogQ s cpuId).2 else s

inductive SendCall where
  | dataSend (e : MpsDataList)
  | dataSendFlowControl (e : MpsDataList) (kmalloc : Bool)
  | datalistSend (serviceSequenceNumber : U8) (datalist no : U32)
  | appMessageSend (serviceSequenceNumber : U8) (pmessage len : U32)
  | mbxSend (pMsg : List U32) (framed : FramedMessage pMsg)

def MpsSender.call (s : MpsSender) (cpuId : MpsCpuId) : SendCall → Int × MpsSender
  | .dataSend e => ifxMpsDataSend2 s cpuId e
  | .dataSendFlowControl e kmalloc => ifxMpsDataSend s cpuId e kmalloc
  | .datalistSend seq datalist no => ifxMpsDatalistSend s cpuId seq datalist no
  | .appMessageSend seq pmessage len => ifxMpsAppMessageSend s cpuId seq pmessage len
  | .mbxSend pMsg _ => s.mbxSend cpuId pMsg

def SendCall.message (cpuId : MpsCpuId) : SendCall → List U32
  | .dataSend e => dataMessage cpuId e
  | .dataSendFlowControl e _ => dataMessage cpuId e
  | .datalistSend seq datalist no => datalistMessage cpuId seq datalist no
  | .appMessageSend seq pmessage len => appMessage cpuId seq pmessage len
  | .mbxSend pMsg _ => pMsg

inductive SenderEvent where
  | call (c : SendCall)
  | flush
  /-- Any other use of a mailbox, by either CPU. -/
  | mailbox (c : MbxCall) (framed : c.Framed)
  /-- A context that is interrupted afterwards takes the lock of the backlog, -/
  | enter
  /-- goes once through the loop, -/
  | turn
  /-- and gives the lock back. -/
  | leave

def MpsSender.step (cpuId : MpsCpuId) (s : MpsSender) : SenderEvent → MpsSender
  | .call c => (s.call cpuId c).2
  | .flush => flushBklogQ s cpuId
  | .mailbox c _ => { s with device := s.device.step c }
  | .enter => if s.bklogQLock = 1 then { s with bklogQLock := 0 } else s
  | .turn =>
    if s.bklogQLock = 0 then bklogLoop cpuId (s.bklogMpsDataList.take 1) s else s
  | .leave => if s.bklogQLock = 0 then { s with bklogQLock := 1 } else s

/-! ### Where a message is -/

def dataMbx : MpsCpuId → Mbx
  | .cpu0 => .wifi1Dwstrm
  | .cpu1 => .wifi0Upstrm

def MpsSender.messages (s : MpsSender) (mbx : Mbx) : List (List U32) := (unread (s.device mbx)).map Prod.snd

/-- The messages in a mailbox, and those in the backlog that wait for it. -/
def MpsSender.outgoing (s : MpsSender) (cpuId : MpsCpuId) (mbx : Mbx) : List (List U32) :=
  s.messages mbx ++
    if mbx = dataMbx cpuId then s.bklogMpsDataList.map fun e => markReady (dataMessage cpuId e) else []

def target (cpuId : MpsCpuId) (pMsg : List U32) : Option Mbx := (mbxSelect cpuId (msgType pMsg)).map Prod.fst

/-- The message has been added once, and nothing else. -/
def MpsSender.PutOnce (s s' : MpsSender) (cpuId : MpsCpuId) (pMsg : List U32) : Prop :=
  ∃ own, target cpuId pMsg = some own ∧
    ∀ mbx, (s'.outgoing cpuId mbx).Perm
      (s.outgoing cpuId mbx ++ if mbx = own then [markReady pMsg] else [])

def MpsSender.Kept (s s' : MpsSender) (cpuId : MpsCpuId) : Prop :=
  ∀ mbx, (s'.outgoing cpuId mbx).Perm (s.outgoing cpuId mbx)

/-- Success means that the message is there once, failure that it is not there. -/
def MpsSender.Honest (s : MpsSender) (cpuId : MpsCpuId) (c : SendCall) : Prop :=
  (s.call cpuId c).1 = 0 ∧ s.PutOnce (s.call cpuId c).2 cpuId (c.message cpuId) ∨
    (s.call cpuId c).1 ≠ 0 ∧ s.Kept (s.call cpuId c).2 cpuId

/-- The mailbox has place for a message with an `mps_msg_buf`. -/
def MpsSender.Room (s : MpsSender) (cpuId : MpsCpuId) : Prop :=
  ifxMpsdrvFifoMemRequest (s.device (dataMbx cpuId)) 16 = true ∧ (s.device (dataMbx cpuId)).HasRoom 16 4

/-- An application message needs place in the mailbox, and a data message that goes to the backlog needs its lock. -/
def MpsSender.Reports (s : MpsSender) (cpuId : MpsCpuId) : SendCall → Prop
  | .appMessageSend .. => s.Room cpuId
  | .dataSendFlowControl _ kmalloc =>
    kmalloc = true → (s.bklogMpsDataList = [] → ¬ s.Room cpuId) → s.bklogQLock = 1
  | _ => True

/-! ### One message to the mailbox -/

theorem markReady_markReady (ws : List U32) : markReady (markReady ws) = markReady ws := by
  have same : ((· ||| 0x8000#32) ∘ (· ||| 0x8000#32) : U32 → U32) = (· ||| 0x8000#32) := by
    funext v
    show (v ||| 0x8000#32) ||| 0x8000#32 = _
    rw [BitVec.or_assoc, BitVec.or_self]
  rw [markReady, markReady, List.modify_modify_eq, same]

theorem write_accepts_iff {f : MpsFifo} {q : List (List U32)} {data : List U32} {length : Nat} (h : f.Represents q)
    (framed : Framed data length) : (ifxMpsdrvFifoWrite f data length).1 = true ↔ f.HasRoom length data.length := by
  obtain ⟨e, two, header, small, words⟩ := framed.entry
  have sum := represents_sum h small
  obtain ⟨roomy, tight⟩ := write_room h framed
  have outcome := write_outcome f words sum
  generalize (ifxMpsdrvFifoWrite f data length).1 = ok at outcome
  generalize (ifxMpsdrvFifoWrite f data length).2 = stores at outcome roomy tight
  have last {st : Store} {done : List Store} (wrap : wrapStores f = done ++ [st]) : st = .writeOff 0 := by
    have both : [Store.word (f.pwriteOff + 1) 0x4000#32] ++ [.writeOff 0] = done ++ [st] := wrap
    exact (List.append_singleton_inj.mp both).2.symm
  have long (g : MpsFifo) (off : Nat) : 2 < (entryStores g off data data.length).length := by
    simp [entryStores, copyStores]
  cases outcome with
  | refused =>
    refine ⟨fun accepted => absurd accepted Bool.false_ne_true, fun room => ?_⟩
    obtain ⟨done, off, split, _⟩ := roomy room
    exact absurd split.symm (by simp)
  | wrapRefused =>
    refine ⟨fun accepted => absurd accepted Bool.false_ne_true, fun room => ?_⟩
    obtain ⟨done, off, split, _⟩ := roomy room
    cases last split
  | fits =>
    refine ⟨fun _ => ?_, fun _ => rfl⟩
    by_contra none
    have many := long f f.pwriteOff
    obtain empty | wrap := tight none
    · rw [empty] at many
      exact absurd many (by decide)
    · rw [wrap] at many
      exact absurd many (Nat.lt_irrefl 2)
  | wraps =>
    refine ⟨fun _ => ?_, fun _ => rfl⟩
    by_contra none
    have many := long f.wrapped 0
    obtain empty | wrap := tight none
    · simp [wrapStores] at empty
    · have short := congrArg List.length wrap
      rw [List.length_append] at short
      omega

variable {s : MpsSender} {cpuId : MpsCpuId} {pMsg : List U32}

def MpsSender.Accepts (s : MpsSender) (own : Mbx) (pMsg : List U32) : Prop :=
  ifxMpsdrvFifoMemRequest (s.device own) (mpsMsghdrLen + msgLen (headerWord pMsg)) = true ∧
    (s.device own).HasRoom (mpsMsghdrLen + msgLen (headerWord pMsg)) pMsg.length

/-- What a send to a mailbox does: it puts the message there, or reports that it has not. -/
inductive SendCases (s : MpsSender) (cpuId : MpsCpuId) (pMsg : List U32) : Int × MpsSender → Prop where
  | sent (own : Mbx) (d : MpsDevice) (aim : target cpuId pMsg = some own) (room : s.Accepts own pMsg)
    (put : ∀ mbx, (unread (d mbx)).map Prod.snd = s.messages mbx ++ if mbx = own then [markReady pMsg] else []) :
    SendCases s cpuId pMsg (0, { s with device := d })
  | refused (retval : Int) (d : MpsDevice) (failed : retval ≠ 0)
    (full : ∀ own, target cpuId pMsg = some own → ¬ s.Accepts own pMsg)
    (same : ∀ mbx, (unread (d mbx)).map Prod.snd = s.messages mbx) :
    SendCases s cpuId pMsg (retval, { s with device := d })

theorem unread_update {d : MpsDevice} {own : Mbx} {f : MpsFifo} {q : List (List U32)} (h : f.Represents q) (mbx : Mbx) :
    (unread (Function.update d own f mbx)).map Prod.snd =
      if mbx = own then q else (unread (d mbx)).map Prod.snd := by
  by_cases same : mbx = own
  · subst same
    rw [Function.update_self, if_pos rfl, represents_unread h]
  · rw [Function.update_of_ne same, if_neg same]

theorem mbxSend_queued (cpuId : MpsCpuId) (inv : s.device.Queued) (framed : FramedMessage pMsg) :
    (s.mbxSend cpuId pMsg).2.device.Queued := afterSend_queued inv framed

theorem mbxSend_cases (cpuId : MpsCpuId) (inv : s.device.Queued) (framed : FramedMessage pMsg) :
    SendCases s cpuId pMsg (s.mbxSend cpuId pMsg) := by
  unfold MpsSender.mbxSend ifxMpsdrvMbxSend
  cases selected : mbxSelect cpuId (msgType pMsg) with
  | none =>
    refine .refused _ _ (show SendResult.noMsg.retval ≠ 0 by decide) (fun own aim => ?_) fun _ => rfl
    rw [target, selected] at aim
    exact absurd aim nofun
  | some place =>
    obtain ⟨own, doorbell⟩ := place
    have aim : target cpuId pMsg = some own := by rw [target, selected]; rfl
    obtain ⟨q, h⟩ := inv own
    have here : s.messages own = q := represents_unread h
    have marked := framed.markReady
    obtain ⟨e, two, header, small, words⟩ := marked.entry
    have room := write_accepts_iff h marked
    have next := write_represents h e header words (represents_sum h small)
    rw [markReady_length] at room
    rw [markReady_markReady] at next
    dsimp only
    by_cases space : ifxMpsdrvFifoMemRequest (s.device own) (mpsMsghdrLen + msgLen (headerWord pMsg)) = true
    · rw [if_pos space]
      cases write : ifxMpsdrvFifoWrite (s.device own) (markReady pMsg) (mpsMsghdrLen + msgLen (headerWord pMsg)) with
      | mk ok stores =>
        rw [write] at room next
        cases ok with
        | true =>
          refine .sent own _ aim ⟨space, room.mp rfl⟩ fun mbx => ?_
          refine (unread_update next mbx).trans ?_
          by_cases same : mbx = own
          · subst same
            rw [if_pos rfl, if_pos rfl, if_pos rfl, here]
          · rw [if_neg same, if_neg same, List.append_nil]
            rfl
        | false =>
          refine .refused _ _ (show SendResult.noMem.retval ≠ 0 by decide) (fun other aim' accepts => ?_) fun mbx => ?_
          · obtain rfl := Option.some.inj (aim.symm.trans aim')
            exact Bool.noConfusion (room.mpr accepts.2)
          · refine (unread_update next mbx).trans ?_
            by_cases same : mbx = own
            · subst same
              rw [if_pos rfl, here]
              rfl
            · exact if_neg same
    · rw [if_neg space]
      refine .refused _ _ (show SendResult.again.retval ≠ 0 by decide) (fun other aim' accepts => ?_) fun mbx => ?_
      · obtain rfl := Option.some.inj (aim.symm.trans aim')
        exact space accepts.1
      · refine (unread_update (f := s.device own) h mbx).trans ?_
        by_cases same : mbx = own
        · subst same
          exact (if_pos rfl).trans here.symm
        · exact if_neg same

/-! ### What goes where -/

theorem msgType_bufMessage (type seqno : U8) (cmd : BitVec 16) (addr len : U32) :
    msgType (bufMessage type seqno cmd addr len) = type.toNat := by
  have top : (type ++ seqno ++ cmd).extractLsb' 24 8 = type := by
    apply BitVec.eq_of_getLsbD_eq
    intro i below
    simp only [BitVec.getLsbD_append, BitVec.getLsbD_extractLsb']
    grind
  exact congrArg BitVec.toNat top

theorem bufMessage_framed (type seqno : U8) (cmd : BitVec 16) (addr len : U32) :
    FramedMessage (bufMessage type seqno cmd addr len) := by
  have body : msgLen (headerWord (bufMessage type seqno cmd addr len)) = 8 := show msgLen 8 = 8 by decide
  refine ⟨rfl, ?_, show msgNextWrapped 8 = false by decide⟩
  show 4 = (8 + _ + 3) / 4
  rw [body]

theorem dataMessage_framed (cpuId : MpsCpuId) (e : MpsDataList) : FramedMessage (dataMessage cpuId e) := by
  cases cpuId <;> exact bufMessage_framed ..

theorem target_dataMessage (cpuId : MpsCpuId) (e : MpsDataList) :
    target cpuId (dataMessage cpuId e) = some (dataMbx cpuId) := by
  cases cpuId
  · rw [target, dataMessage, msgType_bufMessage]
    rfl
  · rw [target, dataMessage, msgType_bufMessage]
    rfl

theorem appMessage_framed (cpuId : MpsCpuId) (seq : U8) (pmessage len : U32) :
    FramedMessage (appMessage cpuId seq pmessage len) := by
  cases cpuId <;> exact bufMessage_framed ..

theorem target_appMessage (cpuId : MpsCpuId) (seq : U8) (pmessage len : U32) :
    target cpuId (appMessage cpuId seq pmessage len) = some (dataMbx cpuId) := by
  cases cpuId
  · rw [target, appMessage, msgType_bufMessage]
    rfl
  · rw [target, appMessage, msgType_bufMessage]
    rfl

theorem accepts_dataMessage (e : MpsDataList) :
    s.Accepts (dataMbx cpuId) (dataMessage cpuId e) ↔ s.Room cpuId := by
  cases cpuId <;> exact Iff.rfl

theorem accepts_appMessage (seq : U8) (pmessage len : U32) :
    s.Accepts (dataMbx cpuId) (appMessage cpuId seq pmessage len) ↔ s.Room cpuId := by
  cases cpuId <;> exact Iff.rfl

/-! ### Results of one send -/

theorem put_of_sent {d : MpsDevice} {own : Mbx} (aim : target cpuId pMsg = some own)
    (put : ∀ mbx, (unread (d mbx)).map Prod.snd = s.messages mbx ++ if mbx = own then [markReady pMsg] else []) :
    s.PutOnce { s with device := d } cpuId pMsg := by
  refine ⟨own, aim, fun mbx => ?_⟩
  have here : MpsSender.messages { s with device := d } mbx = _ := put mbx
  rw [MpsSender.outgoing, here, MpsSender.outgoing, List.append_assoc, List.append_assoc]
  exact List.perm_append_comm.append_left _

theorem kept_of_refused {d : MpsDevice} (same : ∀ mbx, (unread (d mbx)).map Prod.snd = s.messages mbx) :
    s.Kept { s with device := d } cpuId := by
  intro mbx
  have here : MpsSender.messages { s with device := d } mbx = _ := same mbx
  rw [MpsSender.outgoing, here]
  exact List.Perm.refl _

theorem put_not_kept {s' : MpsSender} (put : s.PutOnce s' cpuId pMsg) : ¬ s.Kept s' cpuId := by
  obtain ⟨own, _, put⟩ := put
  intro kept
  have more := (put own).length_eq
  have same := (kept own).length_eq
  rw [if_pos rfl, List.length_append, List.length_singleton] at more
  omega

def MpsSender.Told (s : MpsSender) (cpuId : MpsCpuId) (pMsg : List U32) (r : Int × MpsSender) : Prop :=
  r.1 = 0 ∧ s.PutOnce r.2 cpuId pMsg ∨ r.1 ≠ 0 ∧ s.Kept r.2 cpuId

theorem mbxSend_told (cpuId : MpsCpuId) (inv : s.device.Queued) (framed : FramedMessage pMsg) :
    s.Told cpuId pMsg (s.mbxSend cpuId pMsg) := by
  have outcome := mbxSend_cases cpuId inv framed
  generalize s.mbxSend cpuId pMsg = r at outcome
  cases outcome with
  | sent own d aim room put => exact Or.inl ⟨rfl, put_of_sent aim put⟩
  | refused retval d failed full same => exact Or.inr ⟨failed, kept_of_refused same⟩

theorem send2_cases (cpuId : MpsCpuId) (inv : s.device.Queued) (e : MpsDataList) :
    SendCases s cpuId (dataMessage cpuId e) (ifxMpsDataSend2 s cpuId e) := by
  have outcome := mbxSend_cases cpuId inv (dataMessage_framed cpuId e)
  unfold ifxMpsDataSend2
  generalize s.mbxSend cpuId (dataMessage cpuId e) = r at outcome
  cases outcome with
  | sent own d aim room put => exact .sent own d aim room put
  | refused retval d failed full same =>
    simp only [if_pos failed]
    exact .refused efail d (by decide) full same

theorem send2_queued (cpuId : MpsCpuId) (inv : s.device.Queued) (e : MpsDataList) : (ifxMpsDataSend2 s cpuId e).2.device.Queued :=
  mbxSend_queued cpuId inv (dataMessage_framed cpuId e)

theorem app_told_iff (cpuId : MpsCpuId) (inv : s.device.Queued) (seq : U8) (pmessage len : U32) :
    s.Told cpuId (appMessage cpuId seq pmessage len) (ifxMpsAppMessageSend s cpuId seq pmessage len) ↔
      s.Room cpuId := by
  have outcome := mbxSend_cases cpuId inv (appMessage_framed cpuId seq pmessage len)
  unfold ifxMpsAppMessageSend
  generalize s.mbxSend cpuId (appMessage cpuId seq pmessage len) = r at outcome
  cases outcome with
  | sent own d aim room put =>
    obtain rfl := Option.some.inj ((target_appMessage cpuId seq pmessage len).symm.trans aim)
    exact iff_of_true (Or.inl ⟨rfl, put_of_sent aim put⟩) ((accepts_appMessage seq pmessage len).mp room)
  | refused retval d failed full same =>
    refine iff_of_false ?_ fun room => ?_
    · rintro (⟨_, put⟩ | ⟨wrong, _⟩)
      · exact put_not_kept put (kept_of_refused same)
      · exact wrong rfl
    · exact full _ (target_appMessage cpuId seq pmessage len) ((accepts_appMessage seq pmessage len).mpr room)

/-! ### The backlog -/

theorem kept_trans {s₁ s₂ s₃ : MpsSender} (first : s₁.Kept s₂ cpuId) (second : s₂.Kept s₃ cpuId) : s₁.Kept s₃ cpuId :=
  fun mbx => (second mbx).trans (first mbx)

theorem bklogLoop_kept (cpuId : MpsCpuId) {elems : List MpsDataList} (inv : s.device.Queued) (pre : elems <+: s.bklogMpsDataList) :
    (bklogLoop cpuId elems s).device.Queued ∧ s.Kept (bklogLoop cpuId elems s) cpuId := by
  induction elems generalizing s with
  | nil => exact ⟨inv, fun _ => List.Perm.refl _⟩
  | cons e next ih =>
    obtain ⟨rest, whole⟩ := pre
    have queued := send2_queued cpuId inv e
    have outcome := send2_cases cpuId inv e
    unfold bklogLoop
    generalize ifxMpsDataSend2 s cpuId e = r at outcome queued
    cases outcome with
    | sent own d aim room put =>
      obtain rfl := Option.some.inj ((target_dataMessage cpuId e).symm.trans aim)
      have later : next <+: s.bklogMpsDataList.tail := by
        rw [← whole]
        exact ⟨rest, rfl⟩
      have moved := @ih { s with
        device := d
        bklogMpsDataList := s.bklogMpsDataList.tail
        bklogPkts := s.bklogPkts - 1 } queued later
      obtain ⟨queued', kept⟩ := moved
      refine ⟨queued', kept_trans (fun mbx => ?_) kept⟩
      simp only [MpsSender.outgoing, MpsSender.messages, put, ← whole]
      by_cases own : mbx = dataMbx cpuId
      · subst own
        simp
      · simp [own]
    | refused retval d failed full same =>
      simp only [if_neg failed]
      exact ⟨queued, kept_of_refused same⟩

theorem sendFromBklogQ_kept (cpuId : MpsCpuId) (inv : s.device.Queued) :
    (ifxMpsSendFromBklogQ s cpuId).2.device.Queued ∧ s.Kept (ifxMpsSendFromBklogQ s cpuId).2 cpuId := by
  unfold ifxMpsSendFromBklogQ
  dsimp only
  split
  · exact ⟨inv, fun _ => List.Perm.refl _⟩
  · exact bklogLoop_kept cpuId (s := { s with bklogQLock := s.bklogQLock - 1 }) inv (List.prefix_refl _)

theorem sendFromBklogQ_zero (s : MpsSender) (cpuId : MpsCpuId) : (ifxMpsSendFromBklogQ s cpuId).1 = 0 ↔ s.bklogQLock = 1 := by
  unfold ifxMpsSendFromBklogQ
  dsimp only
  split
  · rename_i held
    exact iff_of_false (show efail ≠ 0 by decide) fun free => held (by rw [free]; rfl)
  · rename_i free
    exact iff_of_true rfl (by omega)

theorem enqueue_put (s : MpsSender) (cpuId : MpsCpuId) (e : MpsDataList) :
    s.PutOnce (ifxMpsDataEnqueue s e true).2 cpuId (dataMessage cpuId e) := by
  refine ⟨dataMbx cpuId, target_dataMessage cpuId e, fun mbx => ?_⟩
  by_cases own : mbx = dataMbx cpuId
  · subst own
    simp [ifxMpsDataEnqueue, MpsSender.outgoing, MpsSender.messages]
  · simp [ifxMpsDataEnqueue, MpsSender.outgoing, MpsSender.messages, own]

/-! ### Data messages with flow control -/

/-- The direct attempt, which is made only if nothing waits. -/
theorem direct_cases (cpuId : MpsCpuId) (inv : s.device.Queued) (e : MpsDataList) :
    let r := if s.bklogMpsDataList.isEmpty then ifxMpsDataSend2 s cpuId e else (efail, s)
    r.2.device.Queued ∧
      (r.1 = 0 ∧ s.PutOnce r.2 cpuId (dataMessage cpuId e) ∧ s.bklogMpsDataList = [] ∧ s.Room cpuId ∨
        r.1 ≠ 0 ∧ s.Kept r.2 cpuId ∧ r.2.bklogQLock = s.bklogQLock ∧ (s.bklogMpsDataList = [] → ¬ s.Room cpuId)) := by
  by_cases empty : s.bklogMpsDataList = []
  · rw [if_pos (List.isEmpty_iff.mpr empty)]
    have queued := send2_queued cpuId inv e
    have outcome := send2_cases cpuId inv e
    generalize ifxMpsDataSend2 s cpuId e = r at outcome queued
    refine ⟨queued, ?_⟩
    cases outcome with
    | sent own d aim room put =>
      obtain rfl := Option.some.inj ((target_dataMessage cpuId e).symm.trans aim)
      exact Or.inl ⟨rfl, put_of_sent aim put, empty, (accepts_dataMessage e).mp room⟩
    | refused retval d failed full same =>
      refine Or.inr ⟨failed, kept_of_refused same, rfl, fun _ room => ?_⟩
      exact full _ (target_dataMessage cpuId e) ((accepts_dataMessage e).mpr room)
  · rw [if_neg (by rwa [List.isEmpty_iff])]
    exact ⟨inv, Or.inr ⟨show efail ≠ 0 by decide, fun _ => List.Perm.refl _, rfl, fun none => absurd none empty⟩⟩

theorem put_trans_kept {s₁ s₂ s₃ : MpsSender} (put : s₁.PutOnce s₂ cpuId pMsg) (kept : s₂.Kept s₃ cpuId) :
    s₁.PutOnce s₃ cpuId pMsg := by
  obtain ⟨own, aim, put⟩ := put
  exact ⟨own, aim, fun mbx => (kept mbx).trans (put mbx)⟩

theorem kept_trans_put {s₁ s₂ s₃ : MpsSender} (kept : s₁.Kept s₂ cpuId) (put : s₂.PutOnce s₃ cpuId pMsg) :
    s₁.PutOnce s₃ cpuId pMsg := by
  obtain ⟨own, aim, put⟩ := put
  exact ⟨own, aim, fun mbx => (put mbx).trans ((kept mbx).append_right _)⟩

theorem flowControl_told_iff (cpuId : MpsCpuId) (inv : s.device.Queued) (e : MpsDataList) (kmalloc : Bool) :
    s.Told cpuId (dataMessage cpuId e) (ifxMpsDataSend s cpuId e kmalloc) ↔
      (kmalloc = true → (s.bklogMpsDataList = [] → ¬ s.Room cpuId) → s.bklogQLock = 1) := by
  have direct := direct_cases cpuId inv e
  unfold ifxMpsDataSend
  generalize (if s.bklogMpsDataList.isEmpty then ifxMpsDataSend2 s cpuId e else (efail, s)) = r at direct
  obtain ⟨retval, s₁⟩ := r
  obtain ⟨queued, ⟨zero, put, empty, room⟩ | ⟨failed, kept, lock, full⟩⟩ := direct
  · simp only [if_pos (show retval = 0 from zero)]
    exact iff_of_true (Or.inl ⟨rfl, put⟩) fun _ none => absurd room (none empty)
  · simp only [if_neg (show ¬ retval = 0 from failed)]
    cases kmalloc with
    | false => exact iff_of_true (Or.inr ⟨show efail ≠ 0 by decide, kept⟩) nofun
    | true =>
      have put := kept_trans_put kept (enqueue_put s₁ cpuId e)
      have stored : s₁.device.Queued := queued
      obtain ⟨_, moved⟩ := sendFromBklogQ_kept cpuId (s := (ifxMpsDataEnqueue s₁ e true).2) stored
      have there := put_trans_kept put moved
      have result : _ ↔ s₁.bklogQLock = 1 := sendFromBklogQ_zero (ifxMpsDataEnqueue s₁ e true).2 cpuId
      have accepted : (ifxMpsDataEnqueue s₁ e true).1 ≠ efail := show (0 : Int) ≠ efail by decide
      simp only [if_neg accepted]
      rw [show s₁.bklogQLock = s.bklogQLock from lock] at result
      constructor
      · rintro (⟨zero, _⟩ | ⟨_, none⟩) _ _
        · exact result.mp zero
        · exact absurd none (put_not_kept there)
      · intro free
        exact Or.inl ⟨result.mpr (free trivial full), there⟩

/-! ### Runs -/

theorem send_told_iff (cpuId : MpsCpuId) (inv : s.device.Queued) (c : SendCall) : s.Honest cpuId c ↔ s.Reports cpuId c := by
  cases c with
  | dataSend e =>
    refine iff_of_true ?_ trivial
    have outcome := send2_cases cpuId inv e
    show s.Told cpuId (dataMessage cpuId e) (ifxMpsDataSend2 s cpuId e)
    generalize ifxMpsDataSend2 s cpuId e = r at outcome
    cases outcome with
    | sent own d aim room put => exact Or.inl ⟨rfl, put_of_sent aim put⟩
    | refused retval d failed full same => exact Or.inr ⟨failed, kept_of_refused same⟩
  | dataSendFlowControl e kmalloc => exact flowControl_told_iff cpuId inv e kmalloc
  | datalistSend seq datalist no =>
    refine iff_of_true (mbxSend_told cpuId inv ?_) trivial
    cases cpuId <;> exact bufMessage_framed ..
  | appMessageSend seq pmessage len => exact app_told_iff cpuId inv seq pmessage len
  | mbxSend pMsg framed => exact iff_of_true (mbxSend_told cpuId inv framed) trivial

theorem call_queued (cpuId : MpsCpuId) (inv : s.device.Queued) (c : SendCall) : (s.call cpuId c).2.device.Queued := by
  cases c with
  | dataSend e => exact send2_queued cpuId inv e
  | dataSendFlowControl e kmalloc =>
    obtain ⟨queued, _⟩ := direct_cases cpuId inv e
    show (ifxMpsDataSend s cpuId e kmalloc).2.device.Queued
    unfold ifxMpsDataSend
    generalize (if s.bklogMpsDataList.isEmpty then ifxMpsDataSend2 s cpuId e else (efail, s)) = r at queued
    dsimp only
    split
    · exact queued
    · split
      · cases kmalloc <;> exact queued
      · refine (sendFromBklogQ_kept cpuId ?_).1
        cases kmalloc <;> exact queued
  | datalistSend seq datalist no =>
    refine mbxSend_queued cpuId inv ?_
    cases cpuId <;> exact bufMessage_framed ..
  | appMessageSend seq pmessage len => exact mbxSend_queued cpuId inv (appMessage_framed cpuId seq pmessage len)
  | mbxSend pMsg framed => exact mbxSend_queued cpuId inv framed

theorem sender_step_queued (cpuId : MpsCpuId) (s : MpsSender) (e : SenderEvent) (inv : s.device.Queued) (_ : True) :
    (s.step cpuId e).device.Queued := by
  cases e with
  | call c => exact call_queued cpuId inv c
  | flush =>
    show (flushBklogQ s cpuId).device.Queued
    unfold flushBklogQ
    split
    · exact (sendFromBklogQ_kept cpuId inv).1
    · exact inv
  | mailbox c framed => exact device_step_queued s.device c inv framed
  | enter =>
    show (if s.bklogQLock = 1 then { s with bklogQLock := 0 } else s).device.Queued
    split <;> exact inv
  | turn =>
    show (if s.bklogQLock = 0 then bklogLoop cpuId (s.bklogMpsDataList.take 1) s else s).device.Queued
    split
    · exact (bklogLoop_kept cpuId inv (List.take_prefix 1 _)).1
    · exact inv
  | leave =>
    show (if s.bklogQLock = 0 then { s with bklogQLock := 1 } else s).device.Queued
    split <;> exact inv

theorem sender_queued (cpuId : MpsCpuId) (size : Mbx → Nat) (size_lt : ∀ mbx, size mbx < 2 ^ 32)
    (events : List SenderEvent) : (exec (MpsSender.step cpuId) (.start size size_lt) events).device.Queued := by
  have preserved : ∀ (s : MpsSender) (e : SenderEvent), s.device.Queued → True → (s.step cpuId e).device.Queued :=
    sender_step_queued cpuId
  have fresh : (MpsSender.start size size_lt).device.Queued := start_queued size_lt
  exact exec_invariant preserved fresh fun _ _ => trivial

/-- After any run a send tells the truth about its message, except that an application message for which there is no
place is reported as sent, and a data message in the backlog as not accepted while another context has the lock. -/
theorem send_outcome_honest_iff (cpuId : MpsCpuId) (size : Mbx → Nat) (size_lt : ∀ mbx, size mbx < 2 ^ 32)
    (events : List SenderEvent) (c : SendCall) :
    let s := exec (MpsSender.step cpuId) (.start size size_lt) events
    s.Honest cpuId c ↔ s.Reports cpuId c :=
  send_told_iff cpuId (sender_queued cpuId size size_lt events) c

/-! ### A full mailbox -/

/-- `MBX_DATA_FIFO_SIZE` and `MBX_CMD_FIFO_SIZE`. -/
def mbxFifoSize : Mbx → Nat
  | .wifi0Upstrm | .wifi1Dwstrm => 128
  | .commandUpstrm | .commandDwstrm => 64

theorem mbxFifoSize_lt (mbx : Mbx) : mbxFifoSize mbx < 2 ^ 32 := by
  cases mbx <;> decide

def sevenSends : List SenderEvent := List.replicate 7 (.call (.dataSendFlowControl ⟨10, 0x80001000, 64⟩ true))

def fullMailbox : MpsSender := exec (MpsSender.step .cpu0) (.start mbxFifoSize mbxFifoSize_lt) sevenSends

/-- With no memory for the backlog the eighth one is refused, and reported so. -/
theorem full_mailbox_refused : fullMailbox.Honest .cpu0 (.dataSendFlowControl ⟨10, 0x80002000, 64⟩ false) :=
  (send_outcome_honest_iff .cpu0 mbxFifoSize mbxFifoSize_lt sevenSends
    (.dataSendFlowControl ⟨10, 0x80002000, 64⟩ false)).mpr nofun

def flushing : List SenderEvent := [.call (.dataSendFlowControl ⟨10, 0x80002000, 64⟩ true), .enter]

/-- An application message to the full mailbox is reported as sent; a data message sent during the flush goes to the
backlog, too, and is reported as not sent. -/
theorem full_mailbox_misreported :
    ¬ fullMailbox.Honest .cpu0 (.appMessageSend 10 0x80003000 64) ∧
      ¬ (exec (MpsSender.step .cpu0) fullMailbox flushing).Honest .cpu0
        (.dataSendFlowControl ⟨10, 0x80003000, 64⟩ true) := by
  constructor
  · intro honest
    have room := (send_told_iff .cpu0 (sender_queued .cpu0 _ mbxFifoSize_lt sevenSends) _).mp honest
    have ahead := room.2.room
    revert ahead
    decide +kernel
  · rw [fullMailbox, ← exec_append]
    intro honest
    have reports := (send_told_iff .cpu0 (sender_queued .cpu0 _ mbxFifoSize_lt (sevenSends ++ flushing)) _).mp honest
    have waiting : (exec (MpsSender.step .cpu0) (.start mbxFifoSize mbxFifoSize_lt)
        (sevenSends ++ flushing)).bklogMpsDataList ≠ [] := by
      decide +kernel
    have free := reports rfl fun none => absurd none waiting
    revert free
    decide +kernel

end TwinpassGateway.Mps
