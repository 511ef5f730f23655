import TwinpassGateway.Foundation.Amortized
import TwinpassGateway.Mps.DualCoreDelivery

/-!
No message is forgotten: as long as one has not been delivered, some handler, tasklet, timer or unfinished call has
something to do, and they cannot go on without end.
-/

namespace TwinpassGateway.Mps

open Foundation

/-- What happens by itself, with memory for the handlers. -/
def DualCoreEvent.Internal : DualCoreEvent → Prop
  | .send .. | .register .. | .unregister .. => False
  | .read _ granted => granted = true
  | _ => True

def Tasklet.rank : Tasklet → Nat
  | .idle => 0
  | .looking => 1
  | .calling _ => 2

/-! ### What is left to do -/

namespace DualCore

/-- What has still to happen until the handler reads a mailbox: every stage costs less than the one before it. -/
def front (s : DualCore) (mbx : Mbx) : Nat :=
  6 * (s.signalling mbx).length + 5 * s.deferred mbx + 4 * (s.status mbx).toNat

def back (s : DualCore) (mbx : Mbx) : Nat :=
  3 * (s.handler mbx.reader).count mbx + 3 * (s.messages mbx).length + 2 * mpsDatamsgGetQCount (s.rcvMsgQ mbx) +
    2 * (s.scheduled mbx).toNat + (s.tasklet mbx).rank

def rankOf (s : DualCore) (mbx : Mbx) : Nat := s.front mbx + s.back mbx

def rank (s : DualCore) : Nat :=
  s.rankOf .wifi0Upstrm + s.rankOf .wifi1Dwstrm + s.rankOf .commandUpstrm + s.rankOf .commandDwstrm

variable {s s' : DualCore} {mbx : Mbx}

theorem rank_lt (mbx : Mbx) (others : ∀ other, s'.rankOf other ≤ s.rankOf other) (lower : s'.rankOf mbx < s.rankOf mbx) :
    s'.rank < s.rank := by
  have first := others .wifi0Upstrm
  have second := others .wifi1Dwstrm
  have third := others .commandUpstrm
  have fourth := others .commandDwstrm
  unfold rank
  cases mbx <;> omega

theorem rank_lt_at (mbx : Mbx) (others : ∀ other, other ≠ mbx → s'.rankOf other ≤ s.rankOf other)
    (lower : s'.rankOf mbx < s.rankOf mbx) : s'.rank < s.rank := by
  refine rank_lt mbx (fun other => ?_) lower
  by_cases same : other = mbx
  · rw [same]
    exact lower.le
  · exact others other same

/-! ### Interrupts -/

theorem handle_signals {m : Mitigation} {count : U32} {type : Nat}
    (signals : (m.handle (mitigationEvent count type)).1 ≠ .deferred) :
    (m.handle (mitigationEvent count type)).2.bklog ≤ m.bklog := by
  unfold mitigationEvent at signals ⊢
  split
  · rcases handle_data m count with ⟨_, none⟩ | ⟨held, _⟩
    · rw [none]
      exact Nat.zero_le _
    · rw [if_pos ‹_›] at signals
      exact absurd held signals
  · split <;> exact Nat.le_refl _

theorem deferred_le (more : Nat) {m m' : Mitigation} {cpuId : MpsCpuId} (before : s.mitigation cpuId = some m)
    (after : s'.mitigation = Function.update s.mitigation cpuId (some m')) (grown : m'.bklog ≤ m.bklog + more) :
    s'.deferred mbx ≤ s.deferred mbx + more := by
  unfold deferred
  split
  · rw [after]
    by_cases writer : mbx.writer = cpuId
    · rw [writer, Function.update_self, before]
      exact grown
    · rw [Function.update_of_ne writer]
      exact Nat.le_add_right _ _
  · exact Nat.zero_le _

theorem bit_le (b : Bool) : b.toNat ≤ 1 := Bool.toNat_le b

section Signals

variable {signalling : Mbx → List Nat} {mitigation : MpsCpuId → Option Mitigation} {status : Mbx → Bool}

theorem resignalled_lowers (mbx : Mbx)
    (others : ∀ other, other ≠ mbx → { s with signalling, mitigation, status }.front other ≤ s.front other)
    (lower : { s with signalling, mitigation, status }.front mbx < s.front mbx) :
    { s with signalling, mitigation, status }.rank < s.rank := by
  refine rank_lt_at mbx (fun other apart => ?_) ?_
  · exact Nat.add_le_add_right (others other apart) (s.back other)
  · exact Nat.add_lt_add_right lower (s.back mbx)

theorem front_other (calls : signalling mbx = s.signalling mbx)
    (held : { s with signalling, mitigation, status }.deferred mbx ≤ s.deferred mbx) (bit : status mbx = s.status mbx) :
    { s with signalling, mitigation, status }.front mbx ≤ s.front mbx := by
  show 6 * (signalling mbx).length + 5 * _ + 4 * (status mbx).toNat ≤ _
  unfold front
  rw [calls, bit]
  omega

theorem front_here (calls : (signalling mbx).length + 1 = (s.signalling mbx).length)
    (held : { s with signalling, mitigation, status }.deferred mbx ≤ s.deferred mbx ∨
      { s with signalling, mitigation, status }.deferred mbx ≤ s.deferred mbx + 1 ∧ status mbx = s.status mbx) :
    { s with signalling, mitigation, status }.front mbx < s.front mbx := by
  show 6 * (signalling mbx).length + 5 * _ + 4 * (status mbx).toNat < _
  unfold front
  have bit := bit_le (status mbx)
  rcases held with less | ⟨more, same⟩
  · omega
  · rw [same]
    omega

end Signals

theorem signal_lowers (sound : s.Sound) {i : Nat} {count : U32} (effective : s.signal mbx i count ≠ s) :
    (s.signal mbx i count).rank < s.rank := by
  unfold signal at effective ⊢
  cases call : (s.signalling mbx)[i]? with
  | none =>
    rw [call] at effective
    exact absurd rfl effective
  | some type =>
    have fewer : (Function.update s.signalling mbx ((s.signalling mbx).eraseIdx i) mbx).length + 1 =
        (s.signalling mbx).length := by
      obtain ⟨inside, _⟩ := List.getElem?_eq_some_iff.mp call
      rw [Function.update_self, List.length_eraseIdx_of_lt inside]
      omega
    have others {other : Mbx} (apart : other ≠ mbx) :
        Function.update s.signalling mbx ((s.signalling mbx).eraseIdx i) other = s.signalling other :=
      Function.update_of_ne apart _ _
    clear effective
    dsimp only
    cases compiled : s.mitigation mbx.writer with
    | none =>
      refine resignalled_lowers (s := s) mbx (fun other apart => ?_) ?_
      · exact front_other (others apart) (Nat.le_refl _) (Function.update_of_ne apart _ _)
      · exact front_here fewer (Or.inl (Nat.le_refl _))
    | some m =>
      dsimp only
      have known : (mbxSelect mbx.writer type).map Prod.fst = some mbx :=
        sound.types mbx type (List.mem_of_getElem? call)
      have elsewhere {other : Mbx} (apart : other ≠ mbx) :
          other ≠ dataMbx mbx.writer ∨ (m.handle (mitigationEvent count type)).2.bklog = m.bklog :=
        handle_elsewhere known apart
      by_cases holds : (m.handle (mitigationEvent count type)).1 = .deferred
      · rw [if_pos holds]
        refine resignalled_lowers (s := s) mbx (fun other apart => ?_) ?_
        · exact front_other (others apart) (deferred_same compiled rfl (elsewhere apart)).le rfl
        · exact front_here fewer (Or.inr ⟨deferred_le 1 compiled rfl (handle_held known holds).2.le, rfl⟩)
      · rw [if_neg holds]
        refine resignalled_lowers (s := s) mbx (fun other apart => ?_) ?_
        · exact front_other (others apart) (deferred_same compiled rfl (elsewhere apart)).le (Function.update_of_ne apart _ _)
        · exact front_here fewer (Or.inl (deferred_le 0 compiled rfl (handle_signals holds)))

theorem timer_lowers {cpuId : MpsCpuId} {count : U32} (effective : s.timer cpuId count ≠ s) :
    (s.timer cpuId count).rank < s.rank := by
  unfold timer at effective ⊢
  cases compiled : s.mitigation cpuId with
  | none =>
    rw [compiled] at effective
    exact absurd rfl effective
  | some m =>
    rw [compiled] at effective
    dsimp only at effective ⊢
    have told := handle_timer m count
    by_cases none : m.bklog = 0
    · rw [told, if_neg (not_not.mpr none)] at effective
      have same : Function.update s.mitigation cpuId (some m) = s.mitigation := by
        rw [← compiled, Function.update_eq_self]
      rw [same] at effective
      exact absurd rfl effective
    · rw [told, if_pos none, if_pos rfl]
      refine resignalled_lowers (s := s) (dataMbx cpuId) (fun other apart => ?_) ?_
      · exact front_other rfl (deferred_same compiled rfl (Or.inl apart)).le (Function.update_of_ne apart _ _)
      · have writer : (dataMbx cpuId).writer = cpuId := by cases cpuId <;> rfl
        have before : s.deferred (dataMbx cpuId) = m.bklog := by
          unfold deferred
          rw [writer, if_pos rfl, compiled]
          rfl
        have after : { s with
            mitigation := Function.update s.mitigation cpuId (some { m with lastInterruptTime := count, bklog := 0 })
            status := Function.update s.status (dataMbx cpuId) true }.deferred (dataMbx cpuId) = 0 := by
          unfold deferred
          rw [writer, if_pos rfl]
          dsimp only
          rw [Function.update_self]
          rfl
        show 6 * (s.signalling (dataMbx cpuId)).length + 5 * _ + 4 * (Function.update s.status _ true _).toNat < _
        unfold front
        rw [before, after, Function.update_self, Bool.toNat_true]
        omega

theorem enter_status (s : DualCore) (irq : MpsIrq) (mbx : Mbx) :
    3 * (irq.mailboxes.filter s.status).count mbx + 4 * (s.status mbx && mbx ∉ irq.mailboxes).toNat ≤
      4 * (s.status mbx).toNat ∧
    (mbx ∈ irq.mailboxes.filter s.status →
      3 * (irq.mailboxes.filter s.status).count mbx + 4 * (s.status mbx && mbx ∉ irq.mailboxes).toNat <
        4 * (s.status mbx).toNat) := by
  have once : irq.mailboxes.Nodup := by cases irq <;> decide
  have count := (once.filter s.status).count (a := mbx)
  cases pending : s.status mbx with
  | false =>
    have absent : mbx ∉ irq.mailboxes.filter s.status := by
      intro member
      rw [(List.mem_filter.mp member).2] at pending
      cases pending
    rw [count, if_neg absent]
    exact ⟨Nat.le_refl _, fun member => absurd member absent⟩
  | true =>
    by_cases own : mbx ∈ irq.mailboxes
    · rw [count, if_pos (List.mem_filter.mpr ⟨own, pending⟩), decide_eq_false (not_not.mpr own)]
      exact ⟨by decide, fun _ => by decide⟩
    · have absent : mbx ∉ irq.mailboxes.filter s.status := fun member => own (List.mem_filter.mp member).1
      rw [count, if_neg absent, decide_eq_true own]
      exact ⟨Nat.le_refl _, fun member => absurd member absent⟩

theorem enter_lowers {irq : MpsIrq} (effective : s.enter irq ≠ s) : (s.enter irq).rank < s.rank := by
  unfold enter at effective ⊢
  cases idle : s.handler irq.cpuId with
  | cons mbx rest =>
    rw [idle] at effective
    exact absurd rfl effective
  | nil =>
    rw [idle] at effective
    dsimp only at effective ⊢
    have due : irq.mailboxes.filter s.status ≠ [] := by
      intro none
      apply effective
      have status : (fun mbx => s.status mbx && mbx ∉ irq.mailboxes) = s.status := by
        funext mbx
        by_cases own : mbx ∈ irq.mailboxes
        · have quiet : s.status mbx = false := by
            rw [← Bool.not_eq_true]
            exact List.filter_eq_nil_iff.mp none mbx own
          rw [quiet, Bool.false_and]
        · rw [decide_eq_true own, Bool.and_true]
      have handler : Function.update s.handler irq.cpuId [] = s.handler := by
        rw [← idle, Function.update_eq_self]
      rw [status, none, handler]
    obtain ⟨mbx, member⟩ := List.exists_mem_of_ne_nil _ due
    have reader : ∀ mbx ∈ irq.mailboxes, mbx.reader = irq.cpuId := by
      cases irq <;> decide
    -- the handler has only mailboxes that its own CPU reads
    have counts (other : Mbx) : ((Function.update s.handler irq.cpuId (irq.mailboxes.filter s.status)) other.reader).count
        other = (s.handler other.reader).count other + (irq.mailboxes.filter s.status).count other := by
      by_cases same : other.reader = irq.cpuId
      · rw [same, Function.update_self, idle, List.count_nil, Nat.zero_add]
      · have absent : other ∉ irq.mailboxes.filter s.status := fun inside =>
          same (reader other (List.mem_filter.mp inside).1)
        rw [Function.update_of_ne same, List.count_eq_zero_of_not_mem absent, Nat.add_zero]
    refine rank_lt mbx (fun other => ?_) ?_
    · have bits := (enter_status s irq other).1
      have same := counts other
      unfold rankOf front back deferred messages
      dsimp only
      omega
    · have bits := (enter_status s irq mbx).2 member
      have same := counts mbx
      unfold rankOf front back deferred messages
      dsimp only
      omega

/-! ### The handlers -/

theorem back_lowers (mbx : Mbx) (front : s'.front = s.front)
    (others : ∀ other, other ≠ mbx → s'.back other ≤ s.back other) (lower : s'.back mbx < s.back mbx) :
    s'.rank < s.rank := by
  refine rank_lt_at mbx (fun other apart => ?_) ?_
  · unfold rankOf
    rw [front]
    exact Nat.add_le_add_left (others other apart) _
  · unfold rankOf
    rw [front]
    exact Nat.add_lt_add_left lower _

theorem leave_lowers {rest : List Mbx} (first : s.handler mbx.reader = mbx :: rest) {f : MpsFifo}
    (h : f.Represents (s.messages mbx)) (starved : Bool) :
    ({ s with dev := Function.update s.dev mbx f, starved := Function.update s.starved mbx starved }.leave mbx rest).rank <
      s.rank := by
  have length : ((unread f).map Prod.snd).length = ((unread (s.dev mbx)).map Prod.snd).length := by
    rw [represents_unread h]
    rfl
  refine back_lowers mbx rfl (fun other apart => ?_) ?_
  · have counts : ((Function.update s.handler mbx.reader rest) other.reader).count other =
        (s.handler other.reader).count other := by
      by_cases same : other.reader = mbx.reader
      · rw [same, Function.update_self, first, List.count_cons_of_ne (Ne.symm apart)]
      · rw [Function.update_of_ne same]
    unfold back leave messages
    dsimp only
    rw [counts, Function.update_of_ne apart, Function.update_of_ne apart]
  · have bit := bit_le (s.scheduled mbx || decide (s.numMsg mbx.reader ≠ 0))
    unfold back leave messages
    dsimp only
    rw [Function.update_self, Function.update_self, Function.update_self, first, List.count_cons_self, length]
    omega

theorem read_lowers (sound : s.Sound) {cpuId : MpsCpuId} (allowed : s.Allowed (.read cpuId true))
    (effective : s.read cpuId true ≠ s) : (s.read cpuId true).rank < s.rank := by
  cases pending : s.handler cpuId with
  | nil =>
    unfold read at effective
    rw [pending] at effective
    exact absurd rfl effective
  | cons mbx rest =>
    obtain rfl := sound.handlers cpuId mbx (by rw [pending]; exact List.mem_cons_self)
    obtain ⟨f, h, ⟨_, same⟩ | ⟨_, no, _⟩ | ⟨some_, _, m, q, ws, f', messages', _, moved, same⟩⟩ :=
      read_cases sound pending true
    · rw [same]
      exact leave_lowers pending h false
    · cases no
    · rw [same]
      obtain ⟨items, here⟩ := sound.passes mbx
      have free := allowed rfl mbx (by rw [pending]; rfl) some_
      have room : items.length < maxMpsDatamsgQlen := by
        refine lt_of_le_of_ne (length_le_qlen here.ring) fun full => ?_
        rw [(isQFull_iff here.ring).mpr full] at free
        exact Bool.noConfusion free
      obtain ⟨ring, entered, holds⟩ := enqueue_room here.ring room ws
      have count := getQCount_eq here.ring
      have count' := getQCount_eq holds
      rw [List.length_append, List.length_singleton] at count'
      have before : ((unread (s.dev mbx)).map Prod.snd).length = q.length + 1 := by
        have given : (unread (s.dev mbx)).map Prod.snd = m :: q := messages'
        rw [given]
        rfl
      have after : ((unread (Function.update s.dev mbx f' mbx)).map Prod.snd).length = q.length := by
        rw [Function.update_self, represents_unread moved]
      refine back_lowers mbx rfl (fun other apart => ?_) ?_
      · unfold back messages
        dsimp only
        rw [Function.update_of_ne apart, Function.update_of_ne apart]
      · unfold back messages
        dsimp only
        rw [after, before, Function.update_self, entered]
        show _ + 2 * mpsDatamsgGetQCount ring + _ + _ < _
        rw [count, count']
        omega

/-! ### The tasklets -/

theorem run_lowers (effective : s.run mbx ≠ s) : (s.run mbx).rank < s.rank := by
  unfold run at effective ⊢
  split at effective
  · rename_i idle set
    refine back_lowers mbx rfl (fun other apart => ?_) ?_
    · unfold back messages
      dsimp only
      rw [Function.update_of_ne apart, Function.update_of_ne apart]
    · unfold back messages
      dsimp only
      rw [Function.update_self, Function.update_self, idle, set]
      simp only [Bool.toNat_false, Bool.toNat_true, Tasklet.rank]
      omega
  · exact absurd rfl effective

theorem look_lowers (sound : s.Sound) (effective : s.look mbx ≠ s) : (s.look mbx).rank < s.rank := by
  cases state : s.tasklet mbx with
  | looking =>
    obtain ⟨items, here⟩ := sound.passes mbx
    obtain ⟨ring, same, holds⟩ := look_cases here.ring state
    have count := getQCount_eq here.ring
    have count' := getQCount_eq holds
    rw [same]
    refine back_lowers mbx rfl (fun other apart => ?_) ?_
    · unfold back messages
      dsimp only
      rw [Function.update_of_ne apart, Function.update_of_ne apart]
    · unfold back messages
      dsimp only
      rw [Function.update_self, Function.update_self, count, count', state, List.length_tail]
      cases items with
      | nil =>
        exact Nat.lt_succ_self _
      | cons ws items =>
        show _ + _ + 2 * (items.length + 1 - 1) + _ + 2 < _ + _ + 2 * (items.length + 1) + _ + 1
        omega
  | _ =>
    unfold look at effective
    rw [state] at effective
    exact absurd rfl effective

theorem finish_lowers (effective : s.finish mbx ≠ s) : (s.finish mbx).rank < s.rank := by
  unfold finish at effective ⊢
  split at effective
  · rename_i ws calling
    refine back_lowers mbx rfl (fun other apart => ?_) ?_
    · unfold back messages
      dsimp only
      rw [Function.update_of_ne apart]
    · unfold back messages
      dsimp only
      rw [Function.update_self, calling]
      simp only [Tasklet.rank]
      omega
  · exact absurd rfl effective

/-! ### Runs -/

theorem step_lowers (sound : s.Sound) {e : DualCoreEvent} (internal : e.Internal) (allowed : s.Allowed e)
    (effective : s.step e ≠ s) : (s.step e).rank < s.rank := by
  cases e with
  | send | register | unregister => exact absurd internal id
  | signal mbx i count => exact signal_lowers sound effective
  | timer cpuId count => exact timer_lowers effective
  | enter irq => exact enter_lowers effective
  | read cpuId granted =>
    obtain rfl : granted = true := internal
    exact read_lowers sound allowed effective
  | run mbx => exact run_lowers effective
  | look mbx => exact look_lowers sound effective
  | finish mbx => exact finish_lowers effective

/-- Nothing that happens by itself changes anything. -/
def Idle (s : DualCore) : Prop := ∀ e : DualCoreEvent, e.Internal → s.step e = s

theorem Idle.handler (idle : s.Idle) (sound : s.Sound) (cpuId : MpsCpuId) : s.handler cpuId = [] := by
  cases pending : s.handler cpuId with
  | nil => rfl
  | cons mbx rest =>
    exfalso
    obtain rfl := sound.handlers cpuId mbx (by rw [pending]; exact List.mem_cons_self)
    have still : s.read mbx.reader true = s := idle (.read mbx.reader true) rfl
    obtain ⟨f, h, ⟨_, same⟩ | ⟨_, no, _⟩ | ⟨_, _, m, q, ws, f', _, _, _, same⟩⟩ := read_cases sound pending true
    · have shorter := congrArg (fun t : DualCore => t.handler mbx.reader) (same.symm.trans still)
      have rest' : Function.update s.handler mbx.reader rest mbx.reader = s.handler mbx.reader := shorter
      rw [Function.update_self, pending] at rest'
      exact absurd (congrArg List.length rest') (Nat.ne_of_lt (Nat.lt_succ_self _))
    · cases no
    · have more := congrArg (fun t : DualCore => t.numMsg mbx.reader) (same.symm.trans still)
      have counted : Function.update s.numMsg mbx.reader (s.numMsg mbx.reader + 1) mbx.reader = s.numMsg mbx.reader := more
      rw [Function.update_self] at counted
      omega

theorem Idle.status (idle : s.Idle) (sound : s.Sound) (mbx : Mbx) : s.status mbx = false := by
  rw [← Bool.not_eq_true]
  intro pending
  obtain ⟨irq, own⟩ : ∃ irq : MpsIrq, mbx ∈ irq.mailboxes := by
    cases mbx
    · exact ⟨.cmd0, by decide⟩
    · exact ⟨.data1, by decide⟩
    · exact ⟨.cmd0, by decide⟩
    · exact ⟨.cmd1, by decide⟩
  have still : s.enter irq = s := idle (.enter irq) trivial
  have handler := idle.handler sound irq.cpuId
  unfold enter at still
  rw [handler] at still
  have entered := congrArg (fun t : DualCore => t.handler irq.cpuId) still
  have due : Function.update s.handler irq.cpuId (irq.mailboxes.filter s.status) irq.cpuId = s.handler irq.cpuId := entered
  rw [Function.update_self, handler] at due
  exact List.not_mem_nil (due ▸ List.mem_filter.mpr ⟨own, pending⟩)

theorem signal_signalling (s : DualCore) (mbx : Mbx) (count : U32) :
    (s.signal mbx 0 count).signalling mbx = (s.signalling mbx).tail := by
  unfold signal
  cases calls : s.signalling mbx with
  | nil => exact calls
  | cons type rest =>
    have erased : Function.update s.signalling mbx ((type :: rest).eraseIdx 0) mbx = rest := Function.update_self ..
    dsimp only [List.getElem?_cons_zero]
    split
    · exact erased
    · split <;> exact erased

theorem Idle.signalling (idle : s.Idle) (mbx : Mbx) : s.signalling mbx = [] := by
  have still : s.signal mbx 0 0 = s := idle (.signal mbx 0 0) trivial
  have shorter := signal_signalling s mbx 0
  rw [still] at shorter
  cases calls : s.signalling mbx with
  | nil => rfl
  | cons type rest =>
    rw [calls] at shorter
    exact absurd (congrArg List.length shorter) (Nat.succ_ne_self _)

theorem Idle.deferred (idle : s.Idle) (mbx : Mbx) : s.deferred mbx = 0 := by
  unfold DualCore.deferred
  split
  · cases compiled : s.mitigation mbx.writer with
    | none => rfl
    | some m =>
      have still : s.timer mbx.writer 0 = s := idle (.timer mbx.writer 0) trivial
      by_contra waits
      have some_ : m.bklog ≠ 0 := waits
      unfold timer at still
      rw [compiled] at still
      dsimp only at still
      rw [handle_timer, if_pos some_] at still
      have reset := congrArg (fun t : DualCore => t.mitigation mbx.writer) still
      have same : Function.update s.mitigation mbx.writer (some { m with lastInterruptTime := 0, bklog := 0 }) mbx.writer =
          s.mitigation mbx.writer := reset
      rw [Function.update_self, compiled] at same
      exact some_ (congrArg Mitigation.bklog (Option.some.inj same)).symm
  · rfl

theorem Idle.tasklet (idle : s.Idle) (sound : s.Sound) (mbx : Mbx) : s.tasklet mbx = .idle := by
  cases state : s.tasklet mbx with
  | idle => rfl
  | looking =>
    obtain ⟨items, here⟩ := sound.passes mbx
    obtain ⟨ring, same, _⟩ := look_cases here.ring state
    have still : s.look mbx = s := idle (.look mbx) trivial
    have moved : Function.update s.tasklet mbx (items.head?.elim .idle .calling) mbx = s.tasklet mbx :=
      congrArg (fun t : DualCore => t.tasklet mbx) (same.symm.trans still)
    rw [Function.update_self, state] at moved
    cases items <;> cases moved
  | calling ws =>
    have still : s.finish mbx = s := idle (.finish mbx) trivial
    unfold finish at still
    rw [state] at still
    have moved : Function.update s.tasklet mbx .looking mbx = s.tasklet mbx :=
      congrArg (fun t : DualCore => t.tasklet mbx) still
    rw [Function.update_self, state] at moved
    cases moved

theorem Idle.scheduled (idle : s.Idle) (sound : s.Sound) (mbx : Mbx) : s.scheduled mbx = false := by
  rw [← Bool.not_eq_true]
  intro set
  have still : s.run mbx = s := idle (.run mbx) trivial
  unfold run at still
  rw [idle.tasklet sound mbx, set] at still
  have moved : Function.update s.scheduled mbx false mbx = s.scheduled mbx :=
    congrArg (fun t : DualCore => t.scheduled mbx) still
  rw [Function.update_self, set] at moved
  cases moved

theorem Idle.quiet (idle : s.Idle) (sound : s.Sound) (fed : s.starved mbx = false) : s.Quiet mbx where
  calls := idle.signalling mbx
  held := idle.deferred mbx
  status := idle.status sound mbx
  handler := by
    rw [idle.handler sound]
    exact List.not_mem_nil
  fed
  scheduled := idle.scheduled sound mbx
  tasklet := idle.tasklet sound mbx

/-- After any run: what happens by itself, in whatever order, comes to an end within `rank` steps that do anything, and
then every message sent has been delivered, of each mailbox whose reading has not been given up for lack of memory. -/
theorem delivery_never_stalls {size : Mbx → Nat} (size_lt : ∀ mbx, size mbx < 2 ^ 32)
    (mitigation : MpsCpuId → Option Mitigation) (mem : Mbx → MpsDatamsgList (List U32)) {before : List DualCoreEvent}
    (allowed : Guarded step Allowed (start size size_lt mitigation mem) before) {later : List DualCoreEvent}
    (alone : Guarded step (fun s e => s.Allowed e ∧ e.Internal ∧ s.step e ≠ s)
      (exec step (start size size_lt mitigation mem) before) later) :
    let s := exec step (start size size_lt mitigation mem) before
    let s' := exec step s later
    later.length + s'.rank ≤ s.rank ∧
      (s'.Idle → ∀ mbx, s'.starved mbx = false →
        List.Forall₂ Copied ((s'.delivered mbx).map Prod.fst) (s'.sent mbx)) := by
  intro s s'
  have sound : s.Sound := guarded_invariant step_sound (start_sound size_lt mitigation mem) allowed
  have preserved (s : DualCore) (e : DualCoreEvent) (sound : s.Sound)
      (here : s.Allowed e ∧ e.Internal ∧ s.step e ≠ s) : (s.step e).Sound := step_sound s e sound here.1
  have lowers (s : DualCore) (e : DualCoreEvent) (sound : s.Sound)
      (here : s.Allowed e ∧ e.Internal ∧ s.step e ≠ s) : (s.step e).rank < s.rank :=
    step_lowers sound here.2.1 here.1 here.2.2
  have ends : s'.Sound := guarded_invariant preserved sound alone
  refine ⟨length_add_potential_le preserved lowers sound alone, fun idle mbx fed => ?_⟩
  obtain ⟨queued, here⟩ := ends.passes mbx
  exact (idle.quiet ends fed).delivered here

/-- The packet of CPU1 again, from the send on. -/
theorem delivery_never_stalls_packet :
    let s := exec step bothLoaded (onePacket.take 2)
    let s' := exec step s (onePacket.drop 2)
    (onePacket.drop 2).length + s'.rank ≤ s.rank ∧
      (s'.Idle → ∀ mbx, s'.starved mbx = false →
        List.Forall₂ Copied ((s'.delivered mbx).map Prod.fst) (s'.sent mbx)) := by
  have upstream {mbx : Mbx} (first : some Mbx.wifi0Upstrm = some mbx) : mbx = .wifi0Upstrm := (Option.some.inj first).symm
  have allowed : Guarded step Allowed bothLoaded (onePacket.take 2) := ⟨trivial, dataMessage_framed .cpu1 _, trivial⟩
  have moves {s s' : DualCore} (lower : s'.rank ≠ s.rank) : s' ≠ s := fun same => lower (congrArg DualCore.rank same)
  refine delivery_never_stalls mbxFifoSize_lt _ _ allowed ?_
  refine ⟨⟨trivial, trivial, moves (by decide)⟩, ⟨trivial, trivial, moves (by decide)⟩,
    ⟨fun _ mbx first _ => ?_, rfl, moves (by decide)⟩, ⟨fun _ mbx first _ => ?_, rfl, moves (by decide)⟩,
    ⟨trivial, trivial, moves (by decide)⟩, ⟨trivial, trivial, moves (by decide)⟩,
    ⟨trivial, trivial, moves (by decide)⟩, ⟨trivial, trivial, moves (by decide)⟩, trivial⟩
  · rw [upstream first]
    rfl
  · rw [upstream first]
    rfl

end DualCore

end TwinpassGateway.Mps
