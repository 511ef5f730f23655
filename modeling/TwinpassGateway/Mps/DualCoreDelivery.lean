import TwinpassGateway.Mps.DualCore

/-!
The messages of both CPUs reach the callbacks that are registered for them.
-/

namespace TwinpassGateway.Mps

open Foundation

/-! ### Callbacks -/

/-- The call is about the callback of the number on that CPU. -/
def DualCoreEvent.Concerns (cpuId : MpsCpuId) (seq : U8) : DualCoreEvent → Prop
  | .register cpuId' seq' _ | .unregister cpuId' seq' => cpuId' = cpuId ∧ seq' = seq
  | _ => False

def CallbackTables.AgreesAt (t t' : CallbackTables) (seq : U8) : Prop :=
  t.callbackFunction seq = t'.callbackFunction seq ∧ t.dataCallbackFunct seq = t'.dataCallbackFunct seq

theorem agreesAt_deliver {t t' : CallbackTables} {seq : U8} (agrees : t.AgreesAt t' seq) (cmd : DataCmd) :
    deliver t seq cmd = deliver t' seq cmd := by
  unfold deliver mbxDataRcvCallback
  rw [agrees.1, agrees.2]

theorem register_agrees (t : CallbackTables) {seq seq' : U8} (apart : seq' ≠ seq) (callback : Option Nat) :
    (mpsRegisterCallback t seq' callback).2.AgreesAt t seq := by
  unfold mpsRegisterCallback mpsdrvRegisterCallback
  split
  · exact ⟨rfl, rfl⟩
  · split
    · exact ⟨rfl, rfl⟩
    · dsimp only
      split
      · exact ⟨rfl, Function.update_of_ne apart.symm _ _⟩
      · exact ⟨Function.update_of_ne apart.symm _ _, Function.update_of_ne apart.symm _ _⟩

theorem unregister_agrees (t : CallbackTables) {seq seq' : U8} (apart : seq' ≠ seq) :
    (mpsUnregisterCallback t seq').2.AgreesAt t seq := by
  unfold mpsUnregisterCallback mpsdrvUnregisterCallback
  split
  · exact ⟨rfl, rfl⟩
  · split
    · exact ⟨rfl, rfl⟩
    · dsimp only
      split
      · exact ⟨rfl, Function.update_of_ne apart.symm _ _⟩
      · exact ⟨Function.update_of_ne apart.symm _ _, Function.update_of_ne apart.symm _ _⟩

namespace DualCore

variable {s s' : DualCore} {mbx : Mbx}

/-- An event leaves the callbacks as they are, and delivers nothing, unless it is about that. -/
theorem step_kept (s : DualCore) (e : DualCoreEvent) :
    (s.step e).tables = s.tables ∧ (s.step e).delivered = s.delivered ∨ (∃ mbx, e = .finish mbx) ∨
      (∃ cpuId seq callback, e = .register cpuId seq callback) ∨ ∃ cpuId seq, e = .unregister cpuId seq := by
  cases e with
  | send cpuId pMsg =>
    refine Or.inl ?_
    show (s.send cpuId pMsg).tables = _ ∧ (s.send cpuId pMsg).delivered = _
    unfold send
    dsimp only
    split <;> exact ⟨rfl, rfl⟩
  | signal mbx i count =>
    refine Or.inl ?_
    show (s.signal mbx i count).tables = _ ∧ (s.signal mbx i count).delivered = _
    unfold signal
    split
    · exact ⟨rfl, rfl⟩
    · dsimp only
      split
      · exact ⟨rfl, rfl⟩
      · split <;> exact ⟨rfl, rfl⟩
  | timer cpuId count =>
    refine Or.inl ?_
    show (s.timer cpuId count).tables = _ ∧ (s.timer cpuId count).delivered = _
    unfold timer
    split
    · exact ⟨rfl, rfl⟩
    · dsimp only
      split <;> exact ⟨rfl, rfl⟩
  | enter irq =>
    refine Or.inl ?_
    show (s.enter irq).tables = _ ∧ (s.enter irq).delivered = _
    unfold enter
    split <;> exact ⟨rfl, rfl⟩
  | read cpuId granted =>
    refine Or.inl ?_
    show (s.read cpuId granted).tables = _ ∧ (s.read cpuId granted).delivered = _
    unfold read
    split
    · exact ⟨rfl, rfl⟩
    · dsimp only
      split
      · exact ⟨rfl, rfl⟩
      · split
        · exact ⟨rfl, rfl⟩
        · split <;> exact ⟨rfl, rfl⟩
  | run mbx =>
    refine Or.inl ?_
    show (s.run mbx).tables = _ ∧ (s.run mbx).delivered = _
    unfold run
    split <;> exact ⟨rfl, rfl⟩
  | look mbx =>
    refine Or.inl ?_
    show (s.look mbx).tables = _ ∧ (s.look mbx).delivered = _
    unfold look
    split <;> exact ⟨rfl, rfl⟩
  | finish mbx => exact Or.inr (Or.inl ⟨mbx, rfl⟩)
  | register cpuId seq callback => exact Or.inr (Or.inr (Or.inl ⟨cpuId, seq, callback, rfl⟩))
  | unregister cpuId seq => exact Or.inr (Or.inr (Or.inr ⟨cpuId, seq, rfl⟩))

theorem step_tables (s : DualCore) {e : DualCoreEvent} {cpuId : MpsCpuId} {seq : U8} (other : ¬ e.Concerns cpuId seq) :
    ((s.step e).tables cpuId).AgreesAt (s.tables cpuId) seq := by
  rcases step_kept s e with ⟨same, _⟩ | ⟨mbx, rfl⟩ | ⟨cpuId', seq', callback, rfl⟩ | ⟨cpuId', seq', rfl⟩
  · rw [same]
    exact ⟨rfl, rfl⟩
  · show ((s.finish mbx).tables cpuId).AgreesAt _ _
    unfold finish
    split <;> exact ⟨rfl, rfl⟩
  · show (Function.update s.tables cpuId' _ cpuId).AgreesAt _ _
    by_cases here : cpuId = cpuId'
    · subst here
      rw [Function.update_self]
      exact register_agrees _ (fun same => other ⟨rfl, same⟩) callback
    · rw [Function.update_of_ne here]
      exact ⟨rfl, rfl⟩
  · show (Function.update s.tables cpuId' _ cpuId).AgreesAt _ _
    by_cases here : cpuId = cpuId'
    · subst here
      rw [Function.update_self]
      exact unregister_agrees _ fun same => other ⟨rfl, same⟩
    · rw [Function.update_of_ne here]
      exact ⟨rfl, rfl⟩

theorem step_delivered (s : DualCore) (e : DualCoreEvent) (mbx : Mbx) :
    ∃ later, (s.step e).delivered mbx = s.delivered mbx ++ later ∧
      ∀ d ∈ later, d.2 = deliverWords (s.tables mbx.reader) d.1 := by
  rcases step_kept s e with ⟨_, same⟩ | ⟨mbx', rfl⟩ | ⟨cpuId', seq', callback, rfl⟩ | ⟨cpuId', seq', rfl⟩
  · exact ⟨[], by rw [same, List.append_nil], nofun⟩
  · show ∃ later, (s.finish mbx').delivered mbx = _ ∧ _
    unfold finish
    split
    · by_cases here : mbx = mbx'
      · subst here
        refine ⟨_, Function.update_self .., fun d member => ?_⟩
        rw [List.mem_singleton.mp member]
      · exact ⟨[], (Function.update_of_ne here _ _).trans (List.append_nil _).symm, nofun⟩
    · exact ⟨[], (List.append_nil _).symm, nofun⟩
  · exact ⟨[], (List.append_nil _).symm, nofun⟩
  · exact ⟨[], (List.append_nil _).symm, nofun⟩

/-- While nobody changes the callback of a number, the messages with it go to the one that is there. -/
theorem exec_delivered (s : DualCore) (mbx : Mbx) {seq : U8} {events : List DualCoreEvent}
    (others : ∀ e ∈ events, ¬ e.Concerns mbx.reader seq) :
    ((exec step s events).tables mbx.reader).AgreesAt (s.tables mbx.reader) seq ∧
      ∃ later, (exec step s events).delivered mbx = s.delivered mbx ++ later ∧
        ∀ d ∈ later, (MpsDataMessage.ofWords d.1).msgSeqno = seq → d.2 = deliverWords (s.tables mbx.reader) d.1 := by
  induction events generalizing s with
  | nil => exact ⟨⟨rfl, rfl⟩, [], (List.append_nil _).symm, nofun⟩
  | cons e rest ih =>
    have agrees := step_tables s (others e List.mem_cons_self)
    obtain ⟨first, now, called⟩ := step_delivered s e mbx
    obtain ⟨agrees', later, after, called'⟩ := ih (s.step e) fun e' member => others e' (List.mem_cons_of_mem _ member)
    refine ⟨⟨agrees'.1.trans agrees.1, agrees'.2.trans agrees.2⟩, first ++ later, ?_, fun d member number => ?_⟩
    · rw [exec_cons, after, now, List.append_assoc]
    · rcases List.mem_append.mp member with here | there
      · exact called d here
      · rw [called' d there number]
        unfold deliverWords
        rw [number]
        exact agreesAt_deliver agrees _

/-- Whatever the order of sends, interrupts, handlers and tasklets on both CPUs: behind each mailbox the records of the
messages sent are, in their order and once each, delivered, with the tasklet or in the ring, and the rest is still in the
mailbox; once nothing is under way all have been delivered; and as long as nobody changes the callback of a number its
messages go to the one that is registered. -/
theorem messages_delivered {size : Mbx → Nat} (size_lt : ∀ mbx, size mbx < 2 ^ 32)
    (mitigation : MpsCpuId → Option Mitigation) (mem : Mbx → MpsDatamsgList (List U32)) {events : List DualCoreEvent}
    (allowed : Guarded step Allowed (start size size_lt mitigation mem) events) (mbx : Mbx) :
    let s := exec step (start size size_lt mitigation mem) events
    (∃ queued passed, (s.rcvMsgQ mbx).Holds queued ∧
      List.Forall₂ Copied ((s.delivered mbx).map Prod.fst ++ (s.tasklet mbx).inHand ++ queued) passed ∧
      s.sent mbx = passed ++ s.messages mbx) ∧
    (s.Quiet mbx → List.Forall₂ Copied ((s.delivered mbx).map Prod.fst) (s.sent mbx)) ∧
    ∀ before after seq, events = before ++ after → (∀ e ∈ after, ¬ e.Concerns mbx.reader seq) →
      let t := exec step (start size size_lt mitigation mem) before
      ∃ later, s.delivered mbx = t.delivered mbx ++ later ∧
        ∀ d ∈ later, ∀ m, Copied d.1 m → (MpsDataMessage.ofWords m).msgSeqno = seq →
          d.2 = deliverWords (t.tables mbx.reader) m := by
  intro s
  have sound : s.Sound := guarded_invariant step_sound (start_sound size_lt mitigation mem) allowed
  obtain ⟨queued, here⟩ := sound.passes mbx
  obtain ⟨passed, copies, sent⟩ := here.order
  refine ⟨⟨queued, passed, here.ring, copies, sent⟩, fun quiet => quiet.delivered here, fun before after seq split others => ?_⟩
  have behind : s = exec step (exec step (start size size_lt mitigation mem) before) after := by
    rw [← exec_append, ← split]
  obtain ⟨_, later, more, called⟩ := exec_delivered (exec step (start size size_lt mitigation mem) before) mbx others
  refine ⟨later, by rw [behind]; exact more, fun d member m copied number => ?_⟩
  rw [called d member (copied.number.trans number)]
  exact copied.callback _

/-- CPU0 registers a callback, CPU1 sends it a packet, and CPU0 goes through the interrupt and the tasklet. -/
def onePacket : List DualCoreEvent :=
  [.register .cpu0 20 (some 7), .send .cpu1 (dataMessage .cpu1 ⟨20, 0x80001000, 64⟩), .signal .wifi0Upstrm 0 0,
    .enter .cmd0, .read .cpu0 true, .read .cpu0 true, .run .wifi0Upstrm, .look .wifi0Upstrm, .finish .wifi0Upstrm,
    .look .wifi0Upstrm]

def bothLoaded : DualCore :=
  start mbxFifoSize mbxFifoSize_lt (fun _ => none) fun _ => { circularBuf := fun _ => none, rpos := 0, wpos := 0 }

theorem messages_delivered_packet :
    (∃ queued passed, ((exec step bothLoaded onePacket).rcvMsgQ .wifi0Upstrm).Holds queued ∧
      List.Forall₂ Copied (((exec step bothLoaded onePacket).delivered .wifi0Upstrm).map Prod.fst ++
        ((exec step bothLoaded onePacket).tasklet .wifi0Upstrm).inHand ++ queued) passed ∧
      (exec step bothLoaded onePacket).sent .wifi0Upstrm = passed ++ (exec step bothLoaded onePacket).messages .wifi0Upstrm) ∧
    List.Forall₂ Copied (((exec step bothLoaded onePacket).delivered .wifi0Upstrm).map Prod.fst)
      ((exec step bothLoaded onePacket).sent .wifi0Upstrm) := by
  have upstream {mbx : Mbx} (first : some Mbx.wifi0Upstrm = some mbx) : mbx = .wifi0Upstrm := (Option.some.inj first).symm
  have allowed : Guarded step Allowed bothLoaded onePacket := by
    refine ⟨trivial, dataMessage_framed .cpu1 _, trivial, trivial, fun _ mbx first _ => ?_, fun _ mbx first _ => ?_,
      trivial, trivial, trivial, trivial, trivial⟩
    · rw [upstream first]
      rfl
    · rw [upstream first]
      rfl
  obtain ⟨passes, delivered, -⟩ := messages_delivered mbxFifoSize_lt _ _ allowed .wifi0Upstrm
  exact ⟨passes, delivered ⟨rfl, rfl, rfl, by decide, rfl, rfl, rfl⟩⟩

end DualCore

end TwinpassGateway.Mps
