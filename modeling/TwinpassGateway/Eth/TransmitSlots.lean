import TwinpassGateway.Eth.Xmit
import TwinpassGateway.Foundation.Loan
import TwinpassGateway.Foundation.Run

/-!
A call of `eth1_xmit` from a process, preempted between its statements by the fast path on the same
channel: who has which descriptor, and which packet buffers have been freed.
-/

namespace TwinpassGateway.Eth

open Foundation

/-! ### The system -/

structure Slots where
  tx : TxCh := {}
  box : Mailbox := {}
  proc : Xmit := .done
  sent : Nat := 0

/-- `beyond` is the word behind the ring, the first descriptor of the next channel. -/
inductive Event
  | xmit
  | stmt
  | fast
  | complete
  | beyond (own : Bool)

/-- The process executes one statement of its call. -/
def Slots.proceed (ch : Nat) (s : Slots) : Slots :=
  { s with
    proc := (s.proc.stmt ch s.tx s.box).1
    tx := (s.proc.stmt ch s.tx s.box).2.1
    box := (s.proc.stmt ch s.tx s.box).2.2 }

/-- `dma_rx_int_handler` hands a packet to `eth1_xmit` with `in_fast_path` set. -/
def Slots.fastPath (ch : Nat) (s : Slots) : Slots :=
  let (_, tx, box) := eth1Xmit ch (.packet s.sent) { s.tx with inFastPath := true } s.box
  { s with tx := { tx with inFastPath := false }, box := box, sent := s.sent + 1 }

def Slots.complete (ch : Nat) (s : Slots) : Slots :=
  { s with
    tx := s.tx.complete
    box := if s.tx.own s.tx.hw then { s.box with isr := s.box.isr ||| swapOut ch } else s.box }

/-- Every call brings a packet of its own. A process call starts when the one before it has returned. -/
def Slots.step (ch : Nat) (s : Slots) : Event → Slots
  | .xmit => if s.proc = .done then { s with proc := .needLock (.packet s.sent), sent := s.sent + 1 } else s
  | .stmt => s.proceed ch
  | .fast => s.fastPath ch
  | .complete => s.complete ch
  | .beyond own => { s with tx := { s.tx with own := Function.update s.tx.own eth1TxDescNum own } }

/-! ### The role of a statement -/

def takenRole (k : Skb) : Option Nat → Role Nat Skb
  | none => .carrying k
  | some p => .holding p k

def Xmit.role : Xmit → Role Nat Skb
  | .needLock k | .down k | .load k _ | .test k _ _ | .refuse k _ | .drop k => .carrying k
  | .next k _ p | .wrap k _ p | .peek k _ p | .room k _ p | .kfree k p => .holding p k
  | .up k _ pos _ | .ifFull k pos _ | .clear k pos | .lineOn k pos | .arm k pos | .stop k pos
  | .unmask k pos | .ifDrop k pos => takenRole k pos
  | .store k p => .emptied p k
  | .word1 k p | .word0 k p => .filled p k
  | .done => .idle

def TxCh.loans (c : TxCh) : Loans Nat Skb :=
  { lent := c.own, kept := c.skbPointers, given := c.given, accepted := c.accepted, freed := c.freed }

/-- The descriptor that a call has found free and has not handed to the hardware yet. -/
def Xmit.slot (x : Xmit) : Option Nat := x.role.holds.map Prod.fst

def Slots.taken (s : Slots) : Option Nat := s.proc.slot

/-- No descriptor is given to two packets, and a packet that has been accepted is freed once, after
the hardware has released its descriptor; until then it is in `skb_pointers` or with the call. -/
structure Slots.Exclusive (s : Slots) : Prop where
  given : (s.tx.given.map Prod.fst).Nodup
  inRing : ∀ g ∈ s.tx.given, g.1 < eth1TxDescNum
  freed : s.tx.freed.Nodup
  released : ∀ g ∈ s.tx.given, g.2 ∉ s.tx.freed
  found : ∀ k ∈ s.tx.accepted, k ∈ s.tx.freed ∨ (∃ p, p < eth1TxDescNum ∧ s.tx.skbPointers p = k) ∨
    s.proc.role.carried = some k

/-- A call on the fast path finds the ring full, or takes a descriptor of the ring that the process
is not about to fill. -/
def Slots.Clear (s : Slots) : Event → Prop
  | .fast => s.tx.own s.tx.allocPos = true ∨
      s.tx.allocPos < eth1TxDescNum ∧ s.taken ≠ some s.tx.allocPos
  | _ => True

instance Slots.decidableClear (s : Slots) (e : Event) : Decidable (s.Clear e) := by
  cases e <;> unfold Slots.Clear <;> infer_instance

/-! ### One statement -/

abbrev InRing (p : Nat) : Prop := p < eth1TxDescNum

/-- `alloc_pos` is behind the ring only between its increment and its reset. -/
def Xmit.Placed (c : TxCh) : Xmit → Prop
  | .test _ _ p => c.allocPos < eth1TxDescNum ∧ p < eth1TxDescNum
  | .wrap .. => c.allocPos = eth1TxDescNum
  | _ => c.allocPos < eth1TxDescNum

variable {ch : Nat} {x : Xmit} {c : TxCh} {m : Mailbox} {seen : Skb → Prop}

theorem Xmit.Placed.stmt (placed : x.Placed c) : (x.stmt ch c m).1.Placed (x.stmt ch c m).2.1 := by
  cases x with
  | load k locked => exact ⟨placed, placed⟩
  | next k locked p =>
    have inside : c.allocPos < eth1TxDescNum := placed
    simp only [Xmit.stmt]
    split
    · assumption
    · show c.allocPos + 1 < eth1TxDescNum
      omega
  | wrap k locked p => exact Nat.zero_lt_succ _
  | test k locked p =>
    simp only [Xmit.stmt]
    split <;> exact placed.1
  | ifDrop k pos => cases pos <;> exact placed
  | needLock k | down k | peek k locked p | up k locked pos full | ifFull k pos full =>
    simp only [Xmit.stmt]
    split <;> exact placed
  | _ => exact placed

theorem sound_stmt (placed : x.Placed c) (sound : Loans.Sound InRing seen c.loans x.role) :
    Loans.Sound InRing seen (x.stmt ch c m).2.1.loans (x.stmt ch c m).1.role := by
  cases x with
  | test k locked p =>
    by_cases own : c.own p
    · simpa [Xmit.stmt, own, Xmit.role] using sound
    · simp only [Xmit.stmt, own]
      exact sound.grant placed.2 (Bool.eq_false_iff.mpr own)
  | drop k => exact sound.drop
  | kfree k p => exact sound.empty
  | store k p => exact sound.fill
  | word0 k p => exact sound.lend
  | ifDrop k pos => cases pos <;> exact sound
  -- the rest touches neither the slots nor the skb pointers
  | needLock k | down k | next k locked p | peek k locked p | up k locked pos full | ifFull k pos full =>
    simp only [Xmit.stmt]
    split <;> exact sound
  | _ => exact sound

/-! ### One event -/

theorem Xmit.Placed.same {c' : TxCh} (placed : x.Placed c) (same : c'.allocPos = c.allocPos) : x.Placed c' := by
  cases x <;> simpa only [Xmit.Placed, same] using placed

theorem Xmit.Placed.move {c' : TxCh} (placed : x.Placed c) (inside : c.allocPos < eth1TxDescNum)
    (moved : c'.allocPos < eth1TxDescNum) : x.Placed c' := by
  cases x with
  | wrap k locked p =>
    have behind : c.allocPos = eth1TxDescNum := placed
    omega
  | test k locked p => exact ⟨moved, placed.2⟩
  | _ => exact moved

theorem following_lt (inside : c.allocPos < eth1TxDescNum) : c.following < eth1TxDescNum := by
  unfold TxCh.following
  split
  · decide
  · omega

variable {s : Slots}

theorem fastPath_full (ch : Nat) (full : s.tx.own s.tx.allocPos = true) :
    (s.fastPath ch).tx.loans = s.tx.loans.free (.packet s.sent) ∧ (s.fastPath ch).tx.allocPos = s.tx.allocPos := by
  have call := eth1Xmit_full ch (c := { s.tx with inFastPath := true }) (m := s.box) (k := .packet s.sent) rfl full
  simp only [Slots.fastPath, call]
  exact ⟨rfl, rfl⟩

theorem fastPath_sent (ch : Nat) (free : s.tx.own s.tx.allocPos = false) :
    (s.fastPath ch).tx.loans = s.tx.loans.swap s.tx.allocPos (.packet s.sent) ∧
      (s.fastPath ch).tx.allocPos = s.tx.following := by
  have call := eth1Xmit_sent ch (c := { s.tx with inFastPath := true }) (m := s.box) (k := .packet s.sent) rfl free
  simp only [Slots.fastPath, call]
  exact ⟨rfl, rfl⟩

def issued (n : Nat) : Skb → Prop
  | .preallocated _ => True
  | .packet k => k < n

theorem issued_mono {n n' : Nat} (more : n ≤ n') {k : Skb} (known : issued n k) : issued n' k := by
  cases k with
  | preallocated i => trivial
  | packet k => exact Nat.lt_of_lt_of_le known more

structure Slots.Inv (s : Slots) : Prop where
  placed : s.proc.Placed s.tx
  sound : Loans.Sound InRing (issued s.sent) s.tx.loans s.proc.role

theorem Slots.Inv.fresh (inv : s.Inv) : ¬ Loans.Known InRing s.tx.loans s.proc.role (.packet s.sent) :=
  fun known => Nat.lt_irrefl s.sent (inv.sound.known _ known)

theorem Slots.Inv.later (inv : s.Inv) : Loans.Sound InRing (issued (s.sent + 1)) s.tx.loans s.proc.role :=
  inv.sound.widen fun _ known => issued_mono (Nat.le_succ _) known

theorem Slots.Inv.exclusive (inv : s.Inv) : s.Exclusive where
  given := inv.sound.distinct
  inRing g given := (inv.sound.owner g given).1
  freed := inv.sound.once
  released _ given := inv.sound.released given
  found := inv.sound.found

theorem taken_eq_some {p : Nat} : s.taken = some p ↔ ∃ k, s.proc.role.holds = some (p, k) := by
  simp [Slots.taken, Xmit.slot]

theorem Slots.Inv.fast (inv : s.Inv) (clear : s.Clear .fast) : (s.fastPath ch).Inv := by
  by_cases full : s.tx.own s.tx.allocPos = true
  · obtain ⟨loans, pos⟩ := fastPath_full ch full
    refine ⟨inv.placed.same pos, ?_⟩
    rw [loans]
    exact inv.later.discard inv.fresh (Nat.lt_succ_self s.sent)
  · have free := Bool.eq_false_iff.mpr full
    obtain ⟨inside, other⟩ := clear.resolve_left full
    obtain ⟨loans, pos⟩ := fastPath_sent ch free
    refine ⟨inv.placed.move inside (by rw [pos]; exact following_lt inside), ?_⟩
    rw [loans]
    refine inv.later.swap inside free (fun k holds => ?_) inv.fresh (Nat.lt_succ_self s.sent)
    exact other (taken_eq_some.mpr ⟨k, holds⟩)

theorem Slots.Inv.completed (inv : s.Inv) : (s.complete ch).Inv := by
  unfold Slots.complete TxCh.complete
  split
  · rename_i own
    exact ⟨inv.placed.same rfl, inv.sound.settle own⟩
  · exact inv

/-- The word behind the ring belongs to no slot. -/
theorem Slots.Inv.beyond (inv : s.Inv) (own : Bool) : (s.step ch (.beyond own)).Inv where
  placed := inv.placed.same rfl
  sound := inv.sound.outside fun _ inside => Function.update_of_ne (Nat.ne_of_lt inside) _ _

theorem Slots.Inv.step (inv : s.Inv) {e : Event} (clear : s.Clear e) : (s.step ch e).Inv := by
  cases e with
  | xmit =>
    simp only [Slots.step]
    split
    · rename_i idle
      have sound := inv.later
      have fresh := inv.fresh
      have placed := inv.placed
      rw [idle] at sound fresh placed
      exact ⟨placed, sound.start fresh (Nat.lt_succ_self s.sent)⟩
    · exact inv
  | stmt => exact ⟨inv.placed.stmt, sound_stmt inv.placed inv.sound⟩
  | fast => exact inv.fast clear
  | complete => exact inv.completed
  | beyond own => exact inv.beyond own

/-- Any other call on the fast path gives a slot to a second packet, or a slot that is not in the ring. -/
theorem Slots.Inv.spoiled (inv : s.Inv) {e : Event} (other : ¬ s.Clear e) : ¬ (s.step ch e).Exclusive := by
  cases e with
  | fast =>
    simp only [Slots.Clear, not_or, not_and, not_not] at other
    obtain ⟨notFull, clash⟩ := other
    obtain ⟨loans, _⟩ := fastPath_sent ch (Bool.eq_false_iff.mpr notFull)
    have given : (s.fastPath ch).tx.given = (s.tx.allocPos, .packet s.sent) :: s.tx.given :=
      congrArg Loans.given loans
    intro exclusive
    -- the slot is the one that the process has taken, or `alloc_pos` is behind the ring
    by_cases inside : s.tx.allocPos < eth1TxDescNum
    · obtain ⟨k, holds⟩ := taken_eq_some.mp (clash inside)
      apply inv.sound.swap_clash (k := .packet s.sent) holds
      rw [← loans]
      exact exclusive.given
    · have outside := exclusive.inRing (s.tx.allocPos, .packet s.sent) (by
        show _ ∈ (s.fastPath ch).tx.given
        rw [given]
        exact List.mem_cons_self)
      exact inside outside
  | _ => exact absurd trivial other

theorem inv_start : Slots.Inv {} where
  placed := Nat.zero_lt_succ _
  sound := {
    owner := by simp [TxCh.loans]
    holder := by simp [Xmit.role, Role.holds]
    distinct := List.nodup_nil
    apart := fun p q _ _ same => Skb.preallocated.inj same
    carried := by simp [Xmit.role, Role.carried]
    stays := by simp [TxCh.loans]
    gone := by simp [Xmit.role]
    filled := by simp [Xmit.role]
    once := List.nodup_nil
    found := by simp [TxCh.loans]
    known := by
      rintro k (freed | ⟨p, _, kept⟩ | same)
      · simp [TxCh.loans] at freed
      · rw [← show Skb.preallocated p = k from kept]
        trivial
      · cases same }

/-! ### Runs -/

/-- Every state of a run keeps the slots and the packet buffers apart exactly when every call on the
fast path is clear of the call it preempts. -/
theorem transmit_slots_exclusive_iff (ch : Nat) (events : List Event) :
    (∀ before after, events = before ++ after → (exec (Slots.step ch) {} before).Exclusive) ↔
      Guarded (Slots.step ch) Slots.Clear {} events := by
  have preserved : ∀ s e, Slots.Inv s → s.Clear e → (s.step ch e).Inv := fun _ _ inv clear => inv.step clear
  have spoiled : ∀ s e, Slots.Inv s → ¬ s.Clear e → ¬ (s.step ch e).Exclusive := fun _ _ inv other => inv.spoiled other
  exact always_iff_guarded preserved (fun _ inv => inv.exclusive) spoiled inv_start

/-- The fast path runs between the test of the descriptor and the increment of `alloc_pos`. -/
theorem slot_given_twice :
    ¬ ∀ (ch : Nat) (events : List Event), (exec (Slots.step ch) {} events).Exclusive := by
  intro always
  have exclusive := always 3 [.xmit, .stmt, .stmt, .stmt, .stmt, .fast]
  have given : (exec (Slots.step 3) {} [.xmit, .stmt, .stmt, .stmt, .stmt, .fast]).tx.given =
      [(0, .packet 1), (0, .packet 0)] := by decide
  have twice := exclusive.given
  rw [given] at twice
  simp at twice

end TwinpassGateway.Eth
