import TwinpassGateway.Foundation.Run
import TwinpassGateway.Foundation.Word

/-!
Interrupt mitigation between the two CPUs (`INTERRUPT_MITIGATION_EWMA` of `mps_tpe_device.c`): a moving average of the
time between packets decides whether a packet signals the other CPU at once or waits for the next one.
-/

namespace TwinpassGateway.Mps

open Foundation

structure Mitigation where
  minAvgIpt : U32
  maxAvgIpt : U32
  tolerableDelay : U32
  lastInterruptTime : U32
  lastPktTime : U32
  avgIpt : U32
  bklog : Nat
  deriving DecidableEq

def scale : Nat := 5

def maxDeferredPkts : Nat := 3

/-- `USECS_PER_JIFFY`, with 100 jiffies a second. -/
def usecsPerJiffy : U32 := 10000#32

def timeDelta (a b : U32) : U32 := if a > b then a - b else 0xFFFFFFFF#32 - b + a

namespace Mitigation

/-- The last part of `ifx_mpsdrv_initial_structures`, with its two readings of the counter. -/
def init (cyclesPerJiffy interruptTime pktTime : U32) : Mitigation :=
  let cyclesPerMicrosec := cyclesPerJiffy / usecsPerJiffy
  { minAvgIpt := 80#32 * cyclesPerMicrosec
    maxAvgIpt := 1500#32 * cyclesPerMicrosec
    tolerableDelay := 300#32 * cyclesPerMicrosec
    lastInterruptTime := interruptTime
    lastPktTime := pktTime
    avgIpt := 1500#32 * cyclesPerMicrosec
    bklog := 0 }

/-- The sample that a packet feeds into the average. -/
def ipt (m : Mitigation) (currPktTime : U32) : U32 := timeDelta currPktTime m.lastPktTime

def average (m : Mitigation) (ipt : U32) : U32 :=
  let avgIpt := m.avgIpt - (m.avgIpt >>> scale) + (ipt >>> scale)
  let avgIpt := if avgIpt > m.minAvgIpt then avgIpt else m.minAvgIpt
  if avgIpt < m.maxAvgIpt then avgIpt else m.maxAvgIpt

def measure (m : Mitigation) (currPktTime : U32) : Mitigation :=
  { m with lastPktTime := currPktTime, avgIpt := m.average (m.ipt currPktTime) }

/-- `generate_interrupt`, with its reading of the counter. -/
def generateInterrupt (m : Mitigation) (currPktTime : U32) : Bool × Mitigation :=
  let m := m.measure currPktTime
  if timeDelta currPktTime m.lastInterruptTime + m.avgIpt > m.tolerableDelay ∨ m.bklog > maxDeferredPkts then
    (true, { m with lastInterruptTime := currPktTime, bklog := 0 })
  else (false, { m with bklog := m.bklog + 1 })

/-- What runs into the mitigation: a data message, an application message (to the same mailbox), a message for the command
mailbox, the timer, each with what the counter shows. -/
inductive Event where
  | data (count : U32)
  | app
  | command
  | timer (count : U32)

/-- The other CPU is told about the data mailbox, it is told about the command mailbox, it is to be told later, or there is
nothing to tell. -/
inductive Outcome where
  | signalled
  | command
  | deferred
  | nothing
  deriving DecidableEq

def handle (m : Mitigation) : Event → Outcome × Mitigation
  | .data count =>
    let (signal, m) := m.generateInterrupt count
    (if signal then .signalled else .deferred, m)
  | .app => (.signalled, m)
  | .command => (.command, m)
  | .timer count =>
    if m.bklog ≠ 0 then (.signalled, { m with lastInterruptTime := count, bklog := 0 }) else (.nothing, m)

def outcomes (m : Mitigation) : List Event → List Outcome
  | [] => []
  | e :: rest => (m.handle e).1 :: (m.handle e).2.outcomes rest

/-- The packets that wait for a signal after these outcomes, `waiting` of them from before. -/
def waitingAfter (waiting : Nat) : List Outcome → Nat
  | [] => waiting
  | .signalled :: rest => waitingAfter 0 rest
  | .deferred :: rest => waitingAfter (waiting + 1) rest
  | .command :: rest | .nothing :: rest => waitingAfter waiting rest

structure Bounded (m : Mitigation) : Prop where
  ordered : m.minAvgIpt ≤ m.maxAvgIpt
  low : m.minAvgIpt ≤ m.avgIpt
  high : m.avgIpt ≤ m.maxAvgIpt
  deferred : m.bklog ≤ maxDeferredPkts + 1

variable {m : Mitigation}

/-- The limits do not wrap whatever the clock is: a jiffy has less than 2^32 cycles. -/
theorem init_bounded (cyclesPerJiffy interruptTime pktTime : U32) :
    (init cyclesPerJiffy interruptTime pktTime).Bounded := by
  have small : (cyclesPerJiffy / usecsPerJiffy).toNat ≤ 429496 := by
    rw [BitVec.toNat_udiv]
    have := cyclesPerJiffy.isLt
    show cyclesPerJiffy.toNat / 10000 ≤ 429496
    omega
  have ordered : 80#32 * (cyclesPerJiffy / usecsPerJiffy) ≤ 1500#32 * (cyclesPerJiffy / usecsPerJiffy) := by
    rw [BitVec.le_def, BitVec.toNat_mul, BitVec.toNat_mul]
    show 80 * _ % 2 ^ 32 ≤ 1500 * _ % 2 ^ 32
    rw [Nat.mod_eq_of_lt (by omega), Nat.mod_eq_of_lt (by omega)]
    omega
  exact ⟨ordered, ordered, BitVec.le_refl _, Nat.zero_le _⟩

theorem average_bounded (ordered : m.minAvgIpt ≤ m.maxAvgIpt) (ipt : U32) :
    m.minAvgIpt ≤ m.average ipt ∧ m.average ipt ≤ m.maxAvgIpt := by
  unfold average
  dsimp only
  generalize m.avgIpt - (m.avgIpt >>> scale) + (ipt >>> scale) = sum
  simp only [BitVec.lt_def, BitVec.le_def, gt_iff_lt] at ordered ⊢
  split <;> split <;> omega

/-- Either the packet signals and nothing waits any longer, or one more waits. -/
theorem generateInterrupt_cases (m : Mitigation) (count : U32) :
    m.generateInterrupt count = (true, { m.measure count with lastInterruptTime := count, bklog := 0 }) ∨
      m.bklog ≤ maxDeferredPkts ∧
        m.generateInterrupt count = (false, { m.measure count with bklog := m.bklog + 1 }) := by
  unfold generateInterrupt
  dsimp only
  split
  · exact Or.inl rfl
  · next quiet => exact Or.inr ⟨Nat.le_of_not_lt fun full => quiet (Or.inr full), rfl⟩

/-- One event keeps the bounds and the limits; what waits after it is in the backlog if what waited before was. -/
theorem handle_bounded (bounded : m.Bounded) {waiting : Nat} (counted : waiting ≤ m.bklog) (e : Event) :
    (m.handle e).2.Bounded ∧ (m.handle e).2.minAvgIpt = m.minAvgIpt ∧ (m.handle e).2.maxAvgIpt = m.maxAvgIpt ∧
      waitingAfter waiting [(m.handle e).1] ≤ (m.handle e).2.bklog := by
  cases e with
  | data count =>
    obtain ⟨low, high⟩ := average_bounded bounded.ordered (m.ipt count)
    dsimp only [handle]
    rcases generateInterrupt_cases m count with signal | ⟨room, defer⟩
    · rw [signal]
      exact ⟨⟨bounded.ordered, low, high, Nat.zero_le _⟩, rfl, rfl, Nat.le_refl 0⟩
    · rw [defer]
      exact ⟨⟨bounded.ordered, low, high, Nat.succ_le_succ room⟩, rfl, rfl, Nat.succ_le_succ counted⟩
  | app => exact ⟨bounded, rfl, rfl, Nat.zero_le _⟩
  | command => exact ⟨bounded, rfl, rfl, counted⟩
  | timer count =>
    dsimp only [handle]
    split
    · exact ⟨⟨bounded.ordered, bounded.low, bounded.high, Nat.zero_le _⟩, rfl, rfl, Nat.le_refl 0⟩
    · exact ⟨bounded, rfl, rfl, counted⟩

theorem waitingAfter_cons (waiting : Nat) (o : Outcome) (rest : List Outcome) :
    waitingAfter waiting (o :: rest) = waitingAfter (waitingAfter waiting [o]) rest := by
  cases o <;> rfl

def afterEvents (m : Mitigation) (events : List Event) : Mitigation := exec (fun m e => (m.handle e).2) m events

theorem run_bounded (bounded : m.Bounded) {waiting : Nat} (counted : waiting ≤ m.bklog) (events : List Event) :
    (m.afterEvents events).Bounded ∧ (m.afterEvents events).minAvgIpt = m.minAvgIpt ∧
      (m.afterEvents events).maxAvgIpt = m.maxAvgIpt ∧
      waitingAfter waiting (m.outcomes events) ≤ (m.afterEvents events).bklog := by
  induction events generalizing m waiting with
  | nil => exact ⟨bounded, rfl, rfl, counted⟩
  | cons e rest ih =>
    obtain ⟨here, least, most, waits⟩ := handle_bounded bounded counted e
    obtain ⟨later, least', most', waits'⟩ := ih here waits
    refine ⟨later, least'.trans least, most'.trans most, ?_⟩
    rw [outcomes, waitingAfter_cons]
    exact waits'

/-- From the initialisation on, whatever arrives and whenever, the average stays between its two limits, and never more
than `MAX_DEFERRED_PKTS + 1` packets wait for a signal. -/
theorem mitigation_bounded (cyclesPerJiffy interruptTime pktTime : U32) (events : List Event) :
    let start := init cyclesPerJiffy interruptTime pktTime
    start.minAvgIpt ≤ (start.afterEvents events).avgIpt ∧ (start.afterEvents events).avgIpt ≤ start.maxAvgIpt ∧
      waitingAfter 0 (start.outcomes events) ≤ maxDeferredPkts + 1 := by
  have bounded := init_bounded cyclesPerJiffy interruptTime pktTime
  obtain ⟨⟨-, low, high, deferred⟩, least, most, waits⟩ := run_bounded bounded (Nat.zero_le _) events
  exact ⟨least ▸ low, most ▸ high, waits.trans deferred⟩

/-! ### The samples -/

/-- What the counter shows when packets arrive these times after one another. -/
def counts (t : U32) : List U32 → List U32
  | [] => []
  | gap :: gaps => (t + gap) :: counts (t + gap) gaps

/-- The samples that packets feed into the average when they meet these readings of the counter. -/
def samples (m : Mitigation) : List U32 → List U32
  | [] => []
  | count :: rest => m.ipt count :: (m.generateInterrupt count).2.samples rest

end Mitigation

theorem timeDelta_wrapped {a b : U32} (wrapped : ¬ b < a) : timeDelta a b = a - b - 1#32 := by
  unfold timeDelta
  rw [if_neg wrapped]
  have ones : 0xFFFFFFFF#32 = -1#32 := rfl
  rw [ones]
  bv_omega

theorem timeDelta_eq_iff (a b : U32) : timeDelta a b = a - b ↔ b < a := by
  by_cases later : b < a
  · exact iff_of_true (if_pos later) later
  · refine iff_of_false (fun same => ?_) later
    rw [timeDelta_wrapped later] at same
    bv_omega

namespace Mitigation

theorem generateInterrupt_lastPktTime (m : Mitigation) (count : U32) :
    (m.generateInterrupt count).2.lastPktTime = count := by
  rcases generateInterrupt_cases m count with signal | ⟨_, defer⟩
  · rw [signal]
    rfl
  · rw [defer]
    rfl

theorem samples_eq_iff (m : Mitigation) (gaps : List U32) :
    m.samples (counts m.lastPktTime gaps) = gaps ↔
      List.IsChain (· < ·) (m.lastPktTime :: counts m.lastPktTime gaps) := by
  induction gaps generalizing m with
  | nil => exact iff_of_true rfl (List.isChain_singleton _)
  | cons gap gaps ih =>
    have gap_eq : m.lastPktTime + gap - m.lastPktTime = gap := by bv_omega
    have first : m.ipt (m.lastPktTime + gap) = gap ↔ m.lastPktTime < m.lastPktTime + gap := by
      rw [← timeDelta_eq_iff, gap_eq]
      rfl
    have later := ih (m.generateInterrupt (m.lastPktTime + gap)).2
    rw [generateInterrupt_lastPktTime] at later
    rw [counts, samples, List.cons.injEq, first, later, List.isChain_cons_cons]

end Mitigation

/-- `TIME_DELTA` is the difference modulo 2^32 exactly when the later reading is the larger number, and the samples are
the true gaps exactly when every reading of the run is larger than the one before. -/
theorem timeDelta_exact_iff (a b : U32) (m : Mitigation) (gaps : List U32) :
    (timeDelta a b = a - b ↔ b < a) ∧
      (m.samples (Mitigation.counts m.lastPktTime gaps) = gaps ↔
        List.IsChain (· < ·) (m.lastPktTime :: Mitigation.counts m.lastPktTime gaps)) :=
  ⟨timeDelta_eq_iff a b, Mitigation.samples_eq_iff m gaps⟩

/-- One tick across the wrap is measured as none, and no tick at all as 2^32 - 1. -/
theorem timeDelta_wrong : ¬ (∀ a b : U32, timeDelta a b = a - b) ∧
    timeDelta 0#32 0xFFFFFFFF#32 = 0#32 ∧ timeDelta 7#32 7#32 = 0xFFFFFFFF#32 := by
  refine ⟨fun exact_ => absurd (exact_ 0#32 0xFFFFFFFF#32) ?_, ?_, ?_⟩ <;> decide

end TwinpassGateway.Mps
