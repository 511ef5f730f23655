import TwinpassGateway.Eth.FlowControl
import TwinpassGateway.Eth.TransmitSlots

/-!
The flow control of eth1 keeps its wake-up: what the mask, the pending bits, the descriptors and the
interrupt line have to do with each other at every statement, and what a run makes of it.
-/

namespace TwinpassGateway.Eth

open Foundation

/-! ### The interrupt line -/

/-- The line is on, or it has been disabled once; its calls have alternated so far. -/
structure Mailbox.Line (m : Mailbox) (on : Bool) : Prop where
  depth : m.depth = if on then 0 else 1
  last : m.calls.head? = some (if on then .enableIrq else .disableIrq)
  alternate : m.calls.IsChain (· ≠ ·)

/-- Whether the line is on: outside the handler and the block of a full ring the mask tells. -/
def Call.lineIs (m : Mailbox) : Call → Bool
  | .xmit _ (.arm _ _) | .irqRead | .irqAck _ | .irqCh2 _ | .irqWake _ | .irqOff => true
  | _ => m.eth1DevTxIrq != 0

variable {m m' : Mailbox} {on : Bool}

theorem Mailbox.Line.same (line : m.Line on) (depth : m'.depth = m.depth) (calls : m'.calls = m.calls) : m'.Line on := by
  obtain ⟨depth', last, alternate⟩ := line
  exact ⟨depth.trans depth', by rw [calls]; exact last, by rw [calls]; exact alternate⟩

theorem chain_cons {a b : LineCall} {calls : List LineCall} (last : calls.head? = some b) (other : a ≠ b)
    (alternate : calls.IsChain (· ≠ ·)) : (a :: calls).IsChain (· ≠ ·) := by
  obtain ⟨rest, rfl⟩ := List.head?_eq_some_iff.mp last
  exact List.IsChain.cons_cons other alternate

theorem Mailbox.Line.enable (line : m.Line false) : m.enableIrq.Line true where
  depth := by simp [Mailbox.enableIrq, line.depth]
  last := rfl
  alternate := chain_cons line.last (by simp) line.alternate

theorem Mailbox.Line.disable (line : m.Line true) : m.disableIrq.Line false where
  depth := by simp [Mailbox.disableIrq, line.depth]
  last := rfl
  alternate := chain_cons line.last (by simp) line.alternate

theorem Mailbox.Line.lineOn (line : m.Line (m.eth1DevTxIrq != 0)) : m.lineOn.Line true := by
  unfold Mailbox.lineOn
  split
  · rename_i zero
    exact Mailbox.Line.enable (by simpa [zero] using line)
  · rename_i armed
    rwa [bne_iff_ne.mpr armed] at line

theorem Mailbox.Line.lineOff (line : m.Line true) : m.lineOff.Line (m.lineOff.eth1DevTxIrq != 0) := by
  unfold Mailbox.lineOff
  split
  · rename_i zero
    simpa [Mailbox.disableIrq, zero] using line.disable
  · rename_i armed
    rwa [bne_iff_ne.mpr armed]

theorem stopIfAll_cases : m.stopIfAll = m ∨ m.eth1DevTxIrq = allTxIrq ∧ m.stopIfAll = { m with stopped := true } := by
  unfold Mailbox.stopIfAll
  split
  · exact .inr ⟨by assumption, rfl⟩
  · exact .inl rfl

theorem swapOut_bit (ch ch' : Fin 4) : (swapOut ch).getLsbD (ch' + 16) = decide (ch' = ch) := by
  revert ch ch'
  decide

theorem arm_ne_zero (ch : Fin 4) : (m.arm (swapOut ch)).eth1DevTxIrq ≠ 0 := by
  intro zero
  have bit := congrArg (fun w : U32 => w.getLsbD (ch + 16)) zero
  simp [Mailbox.arm, swapOut_bit] at bit

variable {d2 : Bool} {s : Driver} {ch caller : Fin 4} {x : Xmit} {c : TxCh}

theorem line_xmit (line : m.Line ((Call.xmit caller x).lineIs m)) :
    (x.stmt ch c m).2.2.Line ((Call.xmit caller (x.stmt ch c m).1).lineIs (x.stmt ch c m).2.2) := by
  cases x with
  | lineOn k pos => exact line.lineOn
  | arm k pos =>
    have on := bne_iff_ne.mpr (arm_ne_zero (m := m) ch)
    show (m.arm (swapOut ch)).Line ((m.arm (swapOut ch)).eth1DevTxIrq != 0)
    rw [on]
    exact line.same rfl rfl
  | stop k pos =>
    simp only [Xmit.stmt]
    rcases stopIfAll_cases (m := m) with same | ⟨_, same⟩
    · rw [same]
      exact line
    · rw [same]
      exact line.same rfl rfl
  | ifDrop k pos => cases pos <;> exact line
  | clear k pos | unmask k pos => exact line.same rfl rfl
  | needLock k | down k | test k locked p | next k locked p | peek k locked p | ifFull k pos full =>
    simp only [Xmit.stmt]
    split <;> exact line
  | _ => exact line

theorem proceed_xmit (call : s.call = .xmit caller x) (more : x ≠ .done) :
    s.proceed d2 =
      { s with
        tx := Function.update s.tx (txChannel d2 caller)
          (x.stmt (txChannel d2 caller) (s.tx (txChannel d2 caller)) s.box).2.1
        box := (x.stmt (txChannel d2 caller) (s.tx (txChannel d2 caller)) s.box).2.2
        call := .xmit caller (x.stmt (txChannel d2 caller) (s.tx (txChannel d2 caller)) s.box).1 } := by
  unfold Driver.proceed
  rw [call]
  cases x with
  | done => exact absurd rfl more
  | _ => rfl

theorem Driver.line_proceed (d2 : Bool) (line : s.box.Line (s.call.lineIs s.box))
    (masked : s.call = .timeoutMask → s.box.eth1DevTxIrq = 0) :
    (s.proceed d2).box.Line ((s.proceed d2).call.lineIs (s.proceed d2).box) := by
  cases call : s.call with
  | xmit caller x =>
    rw [call] at line
    by_cases last : x = .done
    · subst last
      simp only [Driver.proceed, call]
      exact line
    · rw [proceed_xmit call last]
      exact line_xmit line
  | irqCh2 txIrq =>
    rw [call] at line
    simp only [Driver.proceed, call]
    split
    · exact line.same rfl rfl
    · exact line
  | irqWake txIrq =>
    rw [call] at line
    simp only [Driver.proceed, call]
    split
    · exact line
    · exact line.same rfl rfl
  | irqOff =>
    rw [call] at line
    simp only [Driver.proceed, call]
    exact line.lineOff
  | timeoutMask =>
    rw [call] at line
    have off : s.box.Line (s.box.eth1DevTxIrq != 0) := line
    rw [masked call] at off
    simp only [Driver.proceed, call]
    exact off.same rfl rfl
  | _ =>
    rw [call] at line
    simp only [Driver.proceed, call]
    exact line.same rfl rfl

theorem Driver.line_step (d2 : Bool) (line : s.box.Line (s.call.lineIs s.box))
    (masked : s.call = .timeoutMask → s.box.eth1DevTxIrq = 0) {e : Input} :
    (s.step d2 e).box.Line ((s.step d2 e).call.lineIs (s.step d2 e).box) := by
  cases e with
  | stmt => exact line_proceed d2 line masked
  | xmit ch fast k =>
    simp only [Driver.step]
    split
    · rename_i idle
      rw [idle] at line
      exact line
    · exact line
  | timeout =>
    simp only [Driver.step]
    split
    · rename_i idle
      split
      · rw [idle] at line
        exact line
      · exact line
    · exact line
  | interrupt =>
    simp only [Driver.step]
    split
    · rename_i idle
      split
      · rename_i enabled
        rw [idle] at line
        have on : s.box.Line (s.box.eth1DevTxIrq != 0) := line
        have depth := on.depth
        rw [enabled] at depth
        cases armed : s.box.eth1DevTxIrq != 0 with
        | true => rwa [armed] at on
        | false =>
          rw [armed] at depth
          exact absurd depth (by decide)
      · exact line
    · exact line
  | complete ch =>
    simp only [Driver.step]
    split
    · exact line.same rfl rfl
    · exact line
  | raise bits => exact line.same rfl rfl
  | ch2 word => exact line

/-! ### The wake-up of one channel -/

/-- The call drops its packet, has cleared the interrupt bit and has not armed it yet. -/
def Xmit.arming : Xmit → Bool
  | .lineOn _ none | .arm _ none => true
  | _ => false

def Watched (ch : Fin 4) (c : TxCh) (m : Mailbox) : Prop := m.Pending ch ∨ c.Busy

/-- The handler has read the interrupt of the channel and will disarm it. -/
def WillDisarm (ch : Fin 4) (read : Option U32) : Prop := ∃ txIrq, read = some txIrq ∧ txIrq.getLsbD (ch + 16) = true

/-- What a channel can rely on while the call is at `x` there, or the handler has read `read`. -/
structure Attended (d2 : Bool) (ch : Fin 4) (x : Xmit) (c : TxCh) (m : Mailbox) (read : Option U32) : Prop where
  placed : x.Placed c
  slot : ∀ p, x.slot = some p → p < eth1TxDescNum
  armed : d2 = false → m.Armed ch → Watched ch c m ∨ x.slot.isSome = true ∨ WillDisarm ch read
  arming : d2 = false → x.arming = true → Watched ch c m

variable {c' : TxCh} {read read' : Option U32}

theorem Attended.same (h : Attended d2 ch x c m read) (pos : c'.allocPos = c.allocPos)
    (armed : m'.Armed ch → m.Armed ch) (watched : Watched ch c m → Watched ch c' m')
    (disarm : WillDisarm ch read → WillDisarm ch read') : Attended d2 ch x c' m' read' where
  placed := h.placed.same pos
  slot := h.slot
  armed config is := (h.armed config (armed is)).imp watched (Or.imp_right disarm)
  arming config is := watched (h.arming config is)

theorem slot_stmt (placed : x.Placed c) (slot : ∀ p, x.slot = some p → p < eth1TxDescNum) (p : Nat)
    (now : (x.stmt ch c m).1.slot = some p) : p < eth1TxDescNum := by
  cases x with
  | test k locked q =>
    by_cases own : c.own q
    · simp [Xmit.stmt, own, Xmit.slot, Xmit.role, Role.holds] at now
    · simp only [Xmit.stmt, own] at now
      cases now
      exact placed.2
  | ifDrop k pos => cases pos <;> exact slot p now
  | needLock k | down k | next k locked q | peek k locked q | ifFull k pos full =>
    simp only [Xmit.stmt] at now
    split at now <;> exact slot p now
  | done | word0 k q | drop k => cases now
  | _ => exact slot p now

theorem lineOn_mask : m.lineOn.eth1DevTxIrq = m.eth1DevTxIrq ∧ m.lineOn.isr = m.isr := by
  unfold Mailbox.lineOn
  split <;> exact ⟨rfl, rfl⟩

theorem stopIfAll_mask : m.stopIfAll.eth1DevTxIrq = m.eth1DevTxIrq ∧ m.stopIfAll.isr = m.isr := by
  unfold Mailbox.stopIfAll
  split <;> exact ⟨rfl, rfl⟩

theorem Watched.of_isr (watched : Watched ch c m) (isr : m'.isr = m.isr) : Watched ch c m' := by
  unfold Watched Mailbox.Pending at *
  rwa [isr]

theorem Attended.stmt (h : Attended d2 ch x c m none)
    (clear : ∀ k, x = .clear k none → d2 = true ∨ c.Busy) :
    Attended d2 ch (x.stmt ch c m).1 (x.stmt ch c m).2.1 (x.stmt ch c m).2.2 none where
  placed := h.placed.stmt
  slot := slot_stmt h.placed h.slot
  armed := by
    intro config is
    cases x with
    | test k locked p =>
      by_cases own : c.own p
      · simp only [Xmit.stmt, if_pos own] at is ⊢
        exact h.armed config is
      · simp only [Xmit.stmt, if_neg own]
        exact .inr (.inl rfl)
    | clear k pos =>
      cases pos with
      | some p => exact .inr (.inl rfl)
      -- a call that drops its packet relies on the descriptors that are with the hardware now
      | none => exact .inl (.inr ((clear k rfl).resolve_left (by simp [config])))
    | lineOn k pos =>
      have still : m.Armed ch := by
        unfold Mailbox.Armed
        rw [← lineOn_mask.1]
        exact is
      exact (h.armed config still).imp_left fun watched => watched.of_isr lineOn_mask.2
    | arm k pos =>
      cases pos with
      | some p => exact .inr (.inl rfl)
      | none => exact .inl (h.arming config rfl)
    | stop k pos =>
      have still : m.Armed ch := by
        unfold Mailbox.Armed
        rw [← stopIfAll_mask.1]
        exact is
      exact (h.armed config still).imp_left fun watched => watched.of_isr stopIfAll_mask.2
    | ifDrop k pos => cases pos <;> exact h.armed config is
    | word0 k p =>
      refine .inl (.inr ⟨p, h.slot p rfl, ?_⟩)
      simp [Xmit.stmt]
    | down k =>
      by_cases locked : c.lock = 0
      · simp only [Xmit.stmt, if_pos locked] at is ⊢
        exact h.armed config is
      · simp only [Xmit.stmt, if_neg locked] at is ⊢
        exact h.armed config is
    | needLock k | next k locked p | peek k locked p | up k locked pos full | ifFull k pos full =>
      simp only [Xmit.stmt] at is ⊢
      split <;> exact h.armed config is
    | _ => exact h.armed config is
  arming := by
    intro config is
    cases x with
    | clear k pos =>
      cases pos with
      | some p => cases is
      | none => exact .inr ((clear k rfl).resolve_left (by simp [config]))
    | lineOn k pos =>
      cases pos with
      | some p => cases is
      | none => exact (h.arming config rfl).of_isr lineOn_mask.2
    | ifDrop k pos => cases pos <;> cases is
    | needLock k | down k | test k locked p | next k locked p | peek k locked p | ifFull k pos full =>
      simp only [Xmit.stmt] at is
      split at is <;> cases is
    | _ => cases is

theorem pending_isrc {bits : U32} (pending : m.Pending ch) (kept : bits.getLsbD (ch + 16) = false) :
    (m.isrc bits).Pending ch := by
  unfold Mailbox.Pending at *
  simp only [Mailbox.isrc, BitVec.getLsbD_and, BitVec.getLsbD_not, pending, kept]
  simp
  omega

/-- What a call does to the interrupt of another channel: nothing. -/
theorem stmt_other {ch' : Fin 4} (other : ch' ≠ ch) :
    ((x.stmt ch c m).2.2.Armed ch' → m.Armed ch') ∧ (m.Pending ch' → (x.stmt ch c m).2.2.Pending ch') := by
  have bit : (swapOut ch).getLsbD (ch' + 16) = false := by rw [swapOut_bit, decide_eq_false other]
  cases x with
  | clear k pos => exact ⟨id, fun pending => pending_isrc pending bit⟩
  | lineOn k pos =>
    unfold Mailbox.Armed Mailbox.Pending
    simp only [Xmit.stmt, lineOn_mask]
    exact ⟨id, id⟩
  | arm k pos =>
    refine ⟨fun armed => ?_, id⟩
    simpa [Xmit.stmt, Mailbox.Armed, Mailbox.arm, bit] using armed
  | stop k pos =>
    unfold Mailbox.Armed Mailbox.Pending
    simp only [Xmit.stmt, stopIfAll_mask]
    exact ⟨id, id⟩
  | ifDrop k pos => cases pos <;> exact ⟨id, id⟩
  | down k | test k locked p =>
    simp only [Xmit.stmt]
    split <;> exact ⟨id, id⟩
  | _ => exact ⟨id, id⟩

/-! ### The driver -/

/-- Between the store of the driver's mask and the store to the register. -/
def Call.ierLags : Call → Bool
  | .xmit _ (.stop _ _) | .xmit _ (.unmask _ _) => true
  | _ => false

def Call.txIrq : Call → Option U32
  | .irqAck txIrq | .irqCh2 txIrq | .irqWake txIrq => some txIrq
  | _ => none

def Call.onChannel (d2 : Bool) (ch : Fin 4) : Call → Xmit
  | .xmit caller x => if txChannel d2 caller = ch then x else .done
  | _ => .done

structure Masks (lags : Bool) (m : Mailbox) : Prop where
  ier : lags = false → m.ier = m.eth1DevTxIrq
  stopped : m.stopped = true → m.eth1DevTxIrq = allTxIrq

theorem all_or_swapOut (ch : Fin 4) : allTxIrq ||| swapOut ch = allTxIrq := by
  revert ch
  decide

theorem Masks.stmt (h : Masks (Call.xmit caller x).ierLags m) :
    Masks (Call.xmit caller (x.stmt ch c m).1).ierLags (x.stmt ch c m).2.2 := by
  cases x with
  | lineOn k pos =>
    simp only [Xmit.stmt, Mailbox.lineOn]
    split <;> exact ⟨h.ier, h.stopped⟩
  | arm k pos =>
    refine ⟨by simp [Xmit.stmt, Call.ierLags], fun stopped => ?_⟩
    show m.eth1DevTxIrq ||| swapOut ch = allTxIrq
    rw [h.stopped stopped, all_or_swapOut]
  | stop k pos =>
    refine ⟨by simp [Xmit.stmt, Call.ierLags], ?_⟩
    simp only [Xmit.stmt]
    rcases stopIfAll_cases (m := m) with same | ⟨all, same⟩
    · rw [same]
      exact h.stopped
    · rw [same]
      exact fun _ => all
  | unmask k pos => exact ⟨fun _ => rfl, h.stopped⟩
  | ifDrop k pos => cases pos <;> exact h
  | needLock k | down k | test k locked p | next k locked p | peek k locked p | ifFull k pos full =>
    simp only [Xmit.stmt]
    split <;> exact h
  | _ => exact ⟨h.ier, h.stopped⟩

structure Driver.Kept (d2 : Bool) (s : Driver) : Prop where
  line : s.box.Line (s.call.lineIs s.box)
  masked : s.call = .timeoutMask → s.box.eth1DevTxIrq = 0
  masks : Masks s.call.ierLags s.box
  channel1 : d2 = true → ¬ s.box.Armed 1
  read : ∀ txIrq, s.call.txIrq = some txIrq → ∀ i, txIrq.getLsbD i = true → s.box.eth1DevTxIrq.getLsbD i = true
  channel : ∀ ch, Attended d2 ch (s.call.onChannel d2 ch) (s.tx ch) s.box s.call.txIrq

theorem txChannel_ne_one (ch : Fin 4) : txChannel true ch ≠ 1 := by
  revert ch
  decide

theorem Driver.Kept.xmit (kept : s.Kept d2) (call : s.call = .xmit caller x) (more : x ≠ .done)
    (clear : s.Clear d2 .stmt) : (s.proceed d2).Kept d2 := by
  have line := line_proceed d2 kept.line kept.masked
  rw [proceed_xmit call more] at line ⊢
  obtain ⟨_, _, masks, channel1, _, channel⟩ := kept
  rw [call] at masks
  refine ⟨line, by simp, masks.stmt, ?_, by simp [Call.txIrq], fun ch => ?_⟩
  · intro config armed
    subst config
    exact channel1 rfl ((stmt_other (txChannel_ne_one caller).symm).1 armed)
  · have attended := channel ch
    rw [call] at attended
    by_cases here : txChannel d2 caller = ch
    · subst here
      simp only [Call.onChannel, if_true, Function.update_self] at attended ⊢
      refine attended.stmt fun k same => ?_
      subst same
      simpa only [Driver.Clear, call] using clear
    · have other : ch ≠ txChannel d2 caller := Ne.symm here
      simp only [Call.onChannel, if_neg here, Function.update_of_ne other] at attended ⊢
      obtain ⟨armed, pending⟩ := stmt_other (x := x) (c := s.tx (txChannel d2 caller)) (m := s.box) other
      exact attended.same rfl armed (Or.imp_left pending) id

theorem allTxIrq_bit (ch : Fin 4) : allTxIrq.getLsbD (ch + 16) = true := by
  revert ch
  decide

theorem armed_wake {txIrq : U32} (within : ∀ i, txIrq.getLsbD i = true → m.eth1DevTxIrq.getLsbD i = true)
    (armed : (m.wake txIrq).Armed ch) : m.Armed ch ∧ txIrq.getLsbD (ch + 16) = false := by
  have bits : (m.eth1DevTxIrq.getLsbD (ch + 16) ^^ txIrq.getLsbD (ch + 16)) = true := by
    simpa [Mailbox.Armed, Mailbox.wake] using armed
  cases read : txIrq.getLsbD (ch + 16) with
  | true => simp [within _ read, read] at bits
  | false => exact ⟨by simpa [Mailbox.Armed, read] using bits, rfl⟩

theorem armed_startCh2 (armed : m.startCh2.Armed ch) : m.Armed ch := by
  unfold Mailbox.Armed at *
  simp only [Mailbox.startCh2, BitVec.getLsbD_and, Bool.and_eq_true] at armed
  exact armed.1

theorem Driver.Kept.irqAck {txIrq : U32} (kept : s.Kept d2) (call : s.call = .irqAck txIrq) :
    (s.proceed d2).Kept d2 := by
  have line := line_proceed d2 kept.line kept.masked
  obtain ⟨_, _, masks, channel1, read, channel⟩ := kept
  rw [call] at masks read channel
  simp only [Driver.proceed, call] at line ⊢
  refine ⟨line, by simp, ⟨masks.ier, masks.stopped⟩, channel1, read, fun ch => ?_⟩
  obtain ⟨placed, slot, armed, _⟩ := channel ch
  refine ⟨placed, slot, fun config is => ?_, by simp [Call.onChannel, Xmit.arming]⟩
  cases bit : txIrq.getLsbD (ch + 16) with
  | true => exact .inr (.inr ⟨txIrq, rfl, bit⟩)
  | false => exact (armed config is).imp_left (Or.imp_left fun pending => pending_isrc pending bit)

theorem Driver.Kept.irqCh2 {txIrq : U32} (kept : s.Kept d2) (call : s.call = .irqCh2 txIrq) :
    (s.proceed d2).Kept d2 := by
  have line := line_proceed d2 kept.line kept.masked
  obtain ⟨_, _, masks, channel1, read, channel⟩ := kept
  rw [call] at masks read channel
  simp only [Driver.proceed, call] at line ⊢
  split at line
  · rename_i start
    rw [if_pos start]
    refine ⟨line, by simp, ⟨fun _ => rfl, fun stopped => ?_⟩, fun config armed => channel1 config (armed_startCh2 armed),
      ?_, fun ch => ?_⟩
    · show s.box.eth1DevTxIrq &&& allTxIrq = allTxIrq
      rw [masks.stopped stopped]
      rfl
    · intro t same i bit
      cases same
      rw [BitVec.getLsbD_and, Bool.and_eq_true] at bit
      simp [Mailbox.startCh2, read txIrq rfl i bit.1, bit.2]
    · refine (channel ch).same rfl armed_startCh2 id ?_
      · rintro ⟨t, same, bit⟩
        cases same
        exact ⟨_, rfl, by rw [BitVec.getLsbD_and, bit, allTxIrq_bit]; rfl⟩
  · rename_i skip
    rw [if_neg skip]
    exact ⟨line, by simp, masks, channel1, read, channel⟩

theorem Driver.Kept.irqWake {txIrq : U32} (kept : s.Kept d2) (call : s.call = .irqWake txIrq) :
    (s.proceed d2).Kept d2 := by
  have line := line_proceed d2 kept.line kept.masked
  obtain ⟨_, _, masks, channel1, read, channel⟩ := kept
  rw [call] at masks read channel
  simp only [Driver.proceed, call] at line ⊢
  split at line
  · rename_i zero
    subst zero
    rw [if_pos rfl]
    refine ⟨line, by simp, masks, channel1, by simp [Call.txIrq], fun ch => (channel ch).same rfl id id ?_⟩
    rintro ⟨t, same, bit⟩
    cases same
    simp at bit
  · rename_i raised
    rw [if_neg raised]
    have within := read txIrq rfl
    refine ⟨line, by simp, ⟨fun _ => rfl, by simp [Mailbox.wake]⟩, fun config armed => ?_, by simp [Call.txIrq], fun ch => ?_⟩
    · exact channel1 config (armed_wake within armed).1
    · obtain ⟨placed, slot, armed, _⟩ := channel ch
      refine ⟨placed, slot, fun config is => ?_, by simp [Call.onChannel, Xmit.arming]⟩
      obtain ⟨before, unread⟩ := armed_wake within is
      rcases armed config before with watched | taken | ⟨t, same, bit⟩
      · exact .inl (watched.of_isr rfl)
      · exact .inr (.inl taken)
      · cases same
        rw [unread] at bit
        cases bit

theorem Driver.Kept.timeoutMask (kept : s.Kept d2) (call : s.call = .timeoutMask) : (s.proceed d2).Kept d2 := by
  have line := line_proceed d2 kept.line kept.masked
  have zero := kept.masked call
  obtain ⟨_, _, masks, _, _, channel⟩ := kept
  rw [call] at channel
  simp only [Driver.proceed, call] at line ⊢
  refine ⟨line, by simp, ⟨fun _ => rfl, fun stopped => ?_⟩, ?_, by simp [Call.txIrq], fun ch => ?_⟩
  · have all := masks.stopped stopped
    rw [zero] at all
    exact absurd all (by decide)
  · simp [Mailbox.Armed, Mailbox.maskAll]
  · refine (channel ch).same rfl (fun armed => ?_) id id
    simp [Mailbox.Armed, Mailbox.maskAll] at armed

theorem Driver.Kept.proceed (kept : s.Kept d2) (clear : s.Clear d2 .stmt) : (s.proceed d2).Kept d2 := by
  have line := line_proceed d2 kept.line kept.masked
  cases call : s.call with
  | idle => simpa only [Driver.proceed, call] using kept
  | xmit caller x =>
    by_cases last : x = .done
    · subst last
      obtain ⟨_, _, masks, channel1, _, channel⟩ := kept
      rw [call] at masks channel
      simp only [Driver.proceed, call] at line ⊢
      refine ⟨line, by simp, masks, channel1, by simp [Call.txIrq], fun ch => ?_⟩
      have attended := channel ch
      simp only [Call.onChannel, ite_self] at attended ⊢
      by_cases here : ch = caller
      · subst here
        rw [Function.update_self]
        exact attended.same rfl id id id
      · rw [Function.update_of_ne here]
        exact attended
    · exact kept.xmit call last clear
  | irqRead =>
    obtain ⟨_, _, masks, channel1, _, channel⟩ := kept
    rw [call] at masks channel
    simp only [Driver.proceed, call] at line ⊢
    refine ⟨line, by simp, masks, channel1, ?_, fun ch => (channel ch).same rfl id id ?_⟩
    · intro t same i bit
      cases same
      rw [BitVec.getLsbD_and, Bool.and_eq_true] at bit
      exact bit.2
    · rintro ⟨t, same, _⟩
      cases same
  | irqAck txIrq => exact kept.irqAck call
  | irqCh2 txIrq => exact kept.irqCh2 call
  | irqWake txIrq => exact kept.irqWake call
  | irqOff =>
    obtain ⟨_, _, masks, channel1, _, channel⟩ := kept
    rw [call] at masks channel
    simp only [Driver.proceed, call, Mailbox.lineOff] at line ⊢
    split
    · rename_i zero
      rw [if_pos zero] at line
      exact ⟨line, by simp, ⟨masks.ier, masks.stopped⟩, channel1, by simp [Call.txIrq],
        fun ch => (channel ch).same rfl id id id⟩
    · rename_i armed
      rw [if_neg armed] at line
      exact ⟨line, by simp, masks, channel1, by simp [Call.txIrq], channel⟩
  | timeoutMask => exact kept.timeoutMask call
  | timeoutWake =>
    obtain ⟨_, _, masks, channel1, _, channel⟩ := kept
    rw [call] at masks channel
    simp only [Driver.proceed, call] at line ⊢
    exact ⟨line, by simp, ⟨masks.ier, by simp⟩, channel1, by simp [Call.txIrq],
      fun ch => (channel ch).same rfl id id id⟩

theorem Attended.start {k : Skb} (h : Attended d2 ch .done c m none) : Attended d2 ch (.needLock k) c m none where
  placed := h.placed
  slot := by simp [Xmit.slot, Xmit.role, Role.holds]
  armed := h.armed
  arming := by simp [Xmit.arming]

theorem Watched.raise {bits : U32} (watched : Watched ch c m) : Watched ch c { m with isr := m.isr ||| bits } := by
  refine watched.imp_left fun pending => ?_
  unfold Mailbox.Pending at *
  rw [BitVec.getLsbD_or, pending, Bool.true_or]

theorem Driver.Kept.complete (kept : s.Kept d2) : (s.step d2 (.complete ch)).Kept d2 := by
  have line := line_step d2 kept.line kept.masked (e := .complete ch)
  simp only [Driver.step] at line ⊢
  split at line
  · rename_i own
    rw [if_pos own]
    obtain ⟨_, masked, masks, channel1, read, channel⟩ := kept
    refine ⟨line, masked, ⟨masks.ier, masks.stopped⟩, channel1, read, fun ch' => ?_⟩
    by_cases here : ch' = ch
    · subst here
      have pos : (s.tx ch').complete.allocPos = (s.tx ch').allocPos := by
        unfold TxCh.complete
        rw [if_pos own]
      simp only [Function.update_self]
      refine (channel ch').same pos id (fun _ => .inl ?_) id
      simp [Mailbox.Pending, swapOut_bit]
    · simp only [Function.update_of_ne here]
      exact (channel ch').same rfl id Watched.raise id
  · rename_i idle
    rw [if_neg idle]
    exact kept

theorem Driver.Kept.step (kept : s.Kept d2) {e : Input} (clear : s.Clear d2 e) : (s.step d2 e).Kept d2 := by
  have line := line_step d2 kept.line kept.masked (e := e)
  cases e with
  | stmt => exact kept.proceed clear
  | complete ch => exact kept.complete
  | xmit ch fast k =>
    simp only [Driver.step] at line ⊢
    cases call : s.call with
    | idle =>
      obtain ⟨_, _, masks, channel1, _, channel⟩ := kept
      rw [call] at line masks channel
      refine ⟨line, by simp, masks, channel1, by simp [Call.txIrq], fun ch' => ?_⟩
      have still : Attended d2 ch' .done (Function.update s.tx ch { s.tx ch with inFastPath := fast } ch') s.box none := by
        by_cases here : ch' = ch
        · subst here
          rw [Function.update_self]
          exact (channel ch').same rfl id id id
        · rw [Function.update_of_ne here]
          exact channel ch'
      simp only [Call.onChannel]
      split
      · exact still.start
      · exact still
    | _ => exact kept
  | interrupt =>
    simp only [Driver.step] at line ⊢
    cases call : s.call with
    | idle =>
      rw [call] at line
      simp only at line ⊢
      split at line
      · rename_i enabled
        rw [if_pos enabled]
        obtain ⟨_, _, masks, channel1, _, channel⟩ := kept
        rw [call] at masks channel
        exact ⟨line, by simp, masks, channel1, by simp [Call.txIrq], channel⟩
      · rename_i disabled
        rw [if_neg disabled]
        exact kept
    | _ => exact kept
  | timeout =>
    simp only [Driver.step] at line ⊢
    cases call : s.call with
    | idle =>
      have running : s.box.stopped = false := by simpa only [Driver.Clear, call] using clear
      rw [running]
      exact kept
    | _ => exact kept
  | raise bits =>
    obtain ⟨_, masked, masks, channel1, read, channel⟩ := kept
    exact ⟨line, masked, ⟨masks.ier, masks.stopped⟩, channel1, read,
      fun ch => (channel ch).same rfl id Watched.raise id⟩
  | ch2 word =>
    obtain ⟨_, masked, masks, channel1, read, channel⟩ := kept
    exact ⟨line, masked, masks, channel1, read, channel⟩

theorem Driver.Kept.live (kept : s.Kept d2) : s.Live d2 where
  line := kept.line.alternate
  wake := by
    intro idle stopped ch _
    obtain ⟨_, _, masks, channel1, _, channel⟩ := kept
    rw [idle] at masks channel
    have all := masks.stopped stopped
    have armed : ∀ ch : Fin 4, s.box.Armed ch := by
      intro ch
      unfold Mailbox.Armed
      rw [all]
      exact allTxIrq_bit ch
    refine ⟨?_, ?_⟩
    · unfold Mailbox.Enabled
      rw [masks.ier rfl]
      exact armed ch
    · cases config : d2 with
      | true => exact absurd (armed 1) (channel1 config)
      | false =>
        rcases (channel ch).armed config (armed ch) with watched | taken | ⟨_, same, _⟩
        · exact watched
        · cases taken
        · cases same

theorem unarmed_start : ∀ ch : Fin 4, ¬ Mailbox.Armed {} ch := by
  unfold Mailbox.Armed
  decide

theorem kept_start : Driver.Kept d2 {} where
  line := ⟨rfl, rfl, List.isChain_singleton _⟩
  masked := by simp
  masks := ⟨fun _ => rfl, by simp⟩
  channel1 _ := unarmed_start 1
  read := by simp [Call.txIrq]
  channel ch :=
    { placed := Nat.zero_lt_succ _
      slot := by simp [Call.onChannel, Xmit.slot, Xmit.role, Role.holds]
      armed := fun _ armed => absurd armed (unarmed_start ch)
      arming := by simp [Call.onChannel, Xmit.arming] }

/-! ### Runs -/

/-- Every run in which the watchdog never finds the queue stopped, and no interrupt bit of a full ring is cleared
after the last descriptor has been completed, keeps the wake-up and alternates the calls on the interrupt line. -/
theorem guarded_live (d2 : Bool) {events : List Input}
    (clear : Guarded (Driver.step d2) (Driver.Clear d2) {} events) : (exec (Driver.step d2) {} events).Live d2 := by
  have kept : Driver.Kept d2 (exec (Driver.step d2) {} events) :=
    guarded_invariant (fun s e (kept : Driver.Kept d2 s) clear => kept.step clear) kept_start clear
  exact kept.live

/-- With `ENABLE_D2` no call fills the ring of channel 1, and the queue is never stopped. -/
theorem Driver.Kept.running (kept : s.Kept true) : s.box.stopped = false := by
  by_contra stopped
  have all := kept.masks.stopped (Bool.eq_true_of_not_eq_false stopped)
  have armed : s.box.Armed 1 := by
    unfold Mailbox.Armed
    rw [all]
    exact allTxIrq_bit 1
  exact kept.channel1 rfl armed

theorem Driver.Kept.clear (kept : s.Kept true) (e : Input) : s.Clear true e := by
  cases e with
  | timeout =>
    unfold Driver.Clear
    dsimp only
    split
    · exact kept.running
    · trivial
  | stmt =>
    unfold Driver.Clear
    dsimp only
    split
    · exact .inl rfl
    · trivial
  | _ => trivial

/-- In every run of the driver as it is built, with `ENABLE_D2`, a stopped queue will be woken, and the calls on the
interrupt line alternate. -/
theorem flow_control_live (events : List Input) : (exec (Driver.step true) {} events).Live true := by
  have kept : Driver.Kept true (exec (Driver.step true) {} events) :=
    exec_invariant (fun s e (kept : Driver.Kept true s) _ => kept.step (kept.clear e)) kept_start fun _ _ => trivial
  exact kept.live

end TwinpassGateway.Eth
