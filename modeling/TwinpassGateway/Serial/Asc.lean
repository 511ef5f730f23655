import TwinpassGateway.Foundation.Ring
import TwinpassGateway.Foundation.Run
import TwinpassGateway.Foundation.Word

/-!
The transmitter of `ifx_asc.c`: the ring of the tty, the character of the software flow control that goes ahead of it,
and the transmit interrupt.
-/

namespace TwinpassGateway.Serial

open Foundation

def uartXmitSize : Nat := 1024

def circCnt (head tail : Nat) : Nat := (((head : Int) - tail) % uartXmitSize).toNat

def circSpace (head tail : Nat) : Nat := circCnt tail (head + 1)

def wakeupChars : Nat := 256

inductive Sent where
  | ring (ch : U8)
  | xChar (ch : U8)
  deriving DecidableEq

structure Asc where
  buf : Nat → U8
  head : Nat := 0
  tail : Nat := 0
  stopped : Bool := false
  hwStopped : Bool := false
  xChar : U8 := 0
  ascTxIrqOn : Nat := 0
  /-- How often the transmit interrupt has been disabled and not enabled again, in `irq_desc`. -/
  depth : Nat := 1
  /-- `ifx_asc_info`, once the port is started. -/
  info : Bool := true
  icountTx : Nat := 0
  txBytesCount : Nat := 0
  /-- `EVT_WRITE_WAKEUP`. -/
  wakeup : Bool := false
  sent : List Sent := []
  /-- The bytes that the ring has taken. -/
  accepted : List U8 := []
  /-- The characters that `uart_send_xchar` was given. -/
  asked : List U8 := []

namespace Asc

def irqEnabled (s : Asc) : Bool := s.depth = 0

def enableIrq (s : Asc) : Asc := { s with depth := s.depth - 1 }

def disableIrq (s : Asc) : Asc := { s with depth := s.depth + 1 }

def ifxAscStopTx (s : Asc) : Asc :=
  if s.ascTxIrqOn ≠ 0 then { s.disableIrq with ascTxIrqOn := 0 } else s

/-- `ifx_asc_serial_out`, once the FIFO has room. -/
def ifxAscSerialOut (s : Asc) (ch : Sent) : Asc := { s with sent := s.sent ++ [ch] }

def countTx (s : Asc) : Asc := { s with icountTx := s.icountTx + 1, txBytesCount := s.txBytesCount + 1 }

def ifxAscTxChars (s : Asc) : Asc :=
  if s.head = s.tail ∨ s.stopped = true ∨ s.hwStopped = true then s.ifxAscStopTx
  else if s.xChar ≠ 0 then { (s.ifxAscSerialOut (.xChar s.xChar)).countTx with xChar := 0 }
  else
    let s := s.ifxAscSerialOut (.ring (s.buf s.tail))
    let s := { s with tail := (s.tail + 1) &&& (uartXmitSize - 1) }.countTx
    let s := if circCnt s.head s.tail < wakeupChars then { s with wakeup := true } else s
    if s.head = s.tail then s.ifxAscStopTx else s

def ifxAscStartTx (s : Asc) : Asc :=
  let s := if s.ascTxIrqOn = 0 then { s.enableIrq with ascTxIrqOn := s.ascTxIrqOn + 1 } else s
  if s.info then s.ifxAscTxChars else s

def ifxAscTxInt (s : Asc) : Asc := s.ifxAscTxChars

def uartPutChar (s : Asc) (ch : U8) : Asc :=
  if circSpace s.head s.tail ≠ 0 then
    { s with
      buf := Function.update s.buf s.head ch
      head := (s.head + 1) &&& (uartXmitSize - 1)
      accepted := s.accepted ++ [ch] }
  else s

def uartSendXchar (s : Asc) (ch : U8) : Asc :=
  let s := { s with xChar := ch }
  if ch ≠ 0 then { s with asked := s.asked ++ [ch] }.ifxAscStartTx else s

end Asc

inductive AscEvent where
  | putChar (ch : U8)
  | sendXchar (ch : U8)
  | startTx
  | stopTx
  | setStopped (stopped : Bool)
  | setHwStopped (stopped : Bool)
  /-- The transmit interrupt, which is not delivered while it is disabled. -/
  | txInt

namespace Asc

def step (s : Asc) : AscEvent → Asc
  | .putChar ch => s.uartPutChar ch
  | .sendXchar ch => s.uartSendXchar ch
  | .startTx => s.ifxAscStartTx
  | .stopTx => s.ifxAscStopTx
  | .setStopped stopped => { s with stopped }
  | .setHwStopped stopped => { s with hwStopped := stopped }
  | .txInt => if s.irqEnabled then s.ifxAscTxInt else s

def ring (s : Asc) : List U8 := Ring.items s.buf (uartXmitSize - 1) s.tail s.head

def sentRing (s : Asc) : List U8 := s.sent.filterMap fun | .ring ch => some ch | .xChar _ => none

def sentXchars (s : Asc) : List U8 := s.sent.filterMap fun | .ring _ => none | .xChar ch => some ch

/-- The ring's bytes have been sent once each and in order, as far as they are not in the ring, and so has each
character of the flow control, of which none waits; the interrupt is as `asc_tx_irq_on` says. -/
structure Transmitted (s : Asc) : Prop where
  ring : s.sentRing ++ s.ring = s.accepted
  xchars : s.sentXchars = s.asked
  irq : s.irqEnabled = true ↔ s.ascTxIrqOn ≠ 0

/-- The character that `ifx_asc_tx_chars` finds in `x_char`, when the event calls it. -/
def finds (s : Asc) : AscEvent → U8
  | .sendXchar ch => ch
  | .startTx => s.xChar
  | .txInt => if s.irqEnabled then s.xChar else 0
  | _ => 0

/-- If it finds one, the ring is not empty and the tty is not stopped. -/
def NotHeldUp (s : Asc) (e : AscEvent) : Prop :=
  s.finds e ≠ 0 → s.head ≠ s.tail ∧ s.stopped = false ∧ s.hwStopped = false

/-! ### The ring -/

theorem and_mask {n : Nat} (below : n < uartXmitSize) : (n + 1) &&& (uartXmitSize - 1) = Ring.next (uartXmitSize - 1) n := by
  rw [show uartXmitSize - 1 = 2 ^ 10 - 1 from rfl, Nat.and_two_pow_sub_one_eq_mod, Ring.next]
  rw [uartXmitSize] at below
  split <;> omega

theorem circSpace_ne_zero {head tail : Nat} (head_small : head < uartXmitSize) (tail_small : tail < uartXmitSize) :
    circSpace head tail ≠ 0 ↔ Ring.next (uartXmitSize - 1) head ≠ tail := by
  have size : uartXmitSize = 1024 := rfl
  unfold circSpace circCnt Ring.next
  by_cases top : head < uartXmitSize - 1
  · rw [if_pos top, size]
    omega
  · rw [if_neg top, size]
    omega

/-! ### What holds of every state -/

def waiting (s : Asc) : List U8 := if s.xChar = 0 then [] else [s.xChar]

structure Flowing (s : Asc) : Prop where
  ring : s.sentRing ++ s.ring = s.accepted
  xchars : s.sentXchars ++ s.waiting = s.asked
  head_small : s.head < uartXmitSize
  tail_small : s.tail < uartXmitSize
  info : s.info = true
  line : s.depth = 0 ∧ s.ascTxIrqOn = 1 ∨ s.depth = 1 ∧ s.ascTxIrqOn = 0

variable {s : Asc}

/-- Another state of the interrupt line is as good when its flag fits. -/
theorem Flowing.switch (flowing : s.Flowing) {depth on : Nat} (fits : depth = 0 ∧ on = 1 ∨ depth = 1 ∧ on = 0) :
    Flowing { s with depth, ascTxIrqOn := on } :=
  ⟨flowing.ring, flowing.xchars, flowing.head_small, flowing.tail_small, flowing.info, fits⟩

theorem Flowing.stopTx (flowing : s.Flowing) : s.ifxAscStopTx.Flowing := by
  unfold ifxAscStopTx disableIrq
  split
  · obtain ⟨enabled, -⟩ | ⟨-, off⟩ := flowing.line
    · exact flowing.switch (.inr ⟨by rw [enabled], rfl⟩)
    · contradiction
  · exact flowing

theorem stopTx_frame (s : Asc) : s.ifxAscStopTx.xChar = s.xChar ∧ s.ifxAscStopTx.sent = s.sent := by
  unfold ifxAscStopTx
  split <;> exact ⟨rfl, rfl⟩

theorem Flowing.startLine (flowing : s.Flowing) :
    Flowing (if s.ascTxIrqOn = 0 then { s.enableIrq with ascTxIrqOn := s.ascTxIrqOn + 1 } else s) := by
  unfold enableIrq
  split
  · obtain ⟨-, on⟩ | ⟨disabled, off⟩ := flowing.line
    · omega
    · exact flowing.switch (.inl ⟨by rw [disabled], by rw [off]⟩)
  · exact flowing

/-- `ifx_asc_tx_chars` by what it finds. -/
theorem txChars_held (held : s.head = s.tail ∨ s.stopped = true ∨ s.hwStopped = true) :
    s.ifxAscTxChars = s.ifxAscStopTx := if_pos held

theorem txChars_xChar (free : ¬(s.head = s.tail ∨ s.stopped = true ∨ s.hwStopped = true)) (found : s.xChar ≠ 0) :
    s.ifxAscTxChars = { (s.ifxAscSerialOut (.xChar s.xChar)).countTx with xChar := 0 } := by
  rw [ifxAscTxChars, if_neg free, if_pos found]

def sendRing (s : Asc) : Asc :=
  { (s.ifxAscSerialOut (.ring (s.buf s.tail))) with tail := (s.tail + 1) &&& (uartXmitSize - 1) }.countTx

theorem txChars_ring (free : ¬(s.head = s.tail ∨ s.stopped = true ∨ s.hwStopped = true)) (none : s.xChar = 0) :
    ∃ wakeup, s.ifxAscTxChars = { s.sendRing with wakeup } ∨ s.ifxAscTxChars = { s.sendRing with wakeup }.ifxAscStopTx := by
  rw [ifxAscTxChars, if_neg free, if_neg (not_not.mpr none)]
  dsimp only
  split
  · refine ⟨true, ?_⟩
    split
    · exact .inr rfl
    · exact .inl rfl
  · refine ⟨s.wakeup, ?_⟩
    split
    · exact .inr rfl
    · exact .inl rfl

theorem Flowing.sendRing (flowing : s.Flowing) (filled : s.head ≠ s.tail) (wakeup : Bool) :
    Flowing { s.sendRing with wakeup } := by
  obtain ⟨ring, xchars, head_small, tail_small, info, line⟩ := flowing
  have moved := and_mask tail_small
  have taken : s.ring = s.buf s.tail :: Ring.items s.buf (uartXmitSize - 1) (Ring.next (uartXmitSize - 1) s.tail) s.head :=
    Ring.items_pop (by omega) (by omega) filled.symm
  refine ⟨?_, ?_, head_small, ?_, info, line⟩
  · rw [taken] at ring
    simpa [sentRing, Asc.sendRing, ifxAscSerialOut, countTx, Asc.ring, moved] using ring
  · have kept : s.sendRing.sentXchars = s.sentXchars := by simp [sentXchars, Asc.sendRing, ifxAscSerialOut, countTx]
    exact (congrArg (· ++ s.waiting) kept).trans xchars
  · show (s.tail + 1) &&& (uartXmitSize - 1) < uartXmitSize
    rw [moved]
    exact lt_of_le_of_lt (Ring.next_le (by omega)) (by decide)

theorem Flowing.txChars (flowing : s.Flowing) : s.ifxAscTxChars.Flowing := by
  by_cases held : s.head = s.tail ∨ s.stopped = true ∨ s.hwStopped = true
  · rw [txChars_held held]
    exact flowing.stopTx
  by_cases found : s.xChar = 0
  · obtain ⟨wakeup, sent | stopped⟩ := txChars_ring held found
    · rw [sent]
      exact flowing.sendRing (fun empty => held (.inl empty)) wakeup
    · rw [stopped]
      exact (flowing.sendRing (fun empty => held (.inl empty)) wakeup).stopTx
  · rw [txChars_xChar held found]
    obtain ⟨ring, xchars, head_small, tail_small, info, line⟩ := flowing
    refine ⟨?_, ?_, head_small, tail_small, info, line⟩
    · have kept : (s.ifxAscSerialOut (.xChar s.xChar)).sentRing = s.sentRing := by simp [sentRing, ifxAscSerialOut]
      exact (congrArg (· ++ s.ring) kept).trans ring
    · have added : (s.ifxAscSerialOut (.xChar s.xChar)).sentXchars = s.sentXchars ++ [s.xChar] := by
        simp [sentXchars, ifxAscSerialOut]
      rw [waiting, if_neg found] at xchars
      exact (List.append_nil _).trans (added.trans xchars)

theorem Flowing.startTx (flowing : s.Flowing) : s.ifxAscStartTx.Flowing := by
  unfold ifxAscStartTx
  have line := flowing.startLine
  dsimp only
  rw [if_pos line.info]
  exact line.txChars

theorem Flowing.putChar (flowing : s.Flowing) (ch : U8) : (s.uartPutChar ch).Flowing := by
  unfold uartPutChar
  by_cases room : circSpace s.head s.tail ≠ 0
  · obtain ⟨ring, xchars, head_small, tail_small, info, line⟩ := flowing
    have free := (circSpace_ne_zero head_small tail_small).mp room
    rw [if_pos room, and_mask head_small]
    refine ⟨?_, xchars, ?_, tail_small, info, line⟩
    · have added := @Ring.items_push_update _ s.buf (uartXmitSize - 1) s.tail s.head (by omega) (by omega) free ch
      show s.sentRing ++ Ring.items _ _ _ _ = s.accepted ++ [ch]
      rw [added, ← List.append_assoc]
      exact congrArg (· ++ [ch]) ring
    · exact lt_of_le_of_lt (Ring.next_le (by omega)) (by decide)
  · rw [if_neg room]
    exact flowing

/-- With no character waiting, another one can be asked for. -/
theorem Flowing.ask (flowing : s.Flowing) (none : s.xChar = 0) {ch : U8} (asked : ch ≠ 0) :
    Flowing { s with xChar := ch, asked := s.asked ++ [ch] } := by
  obtain ⟨ring, xchars, head_small, tail_small, info, line⟩ := flowing
  refine ⟨ring, ?_, head_small, tail_small, info, line⟩
  rw [waiting, if_pos none, List.append_nil] at xchars
  show s.sentXchars ++ (if ch = 0 then [] else [ch]) = s.asked ++ [ch]
  rw [if_neg asked, xchars]

/-! ### The character that is found -/

theorem txChars_clears (free : ¬(s.head = s.tail ∨ s.stopped = true ∨ s.hwStopped = true)) : s.ifxAscTxChars.xChar = 0 := by
  by_cases found : s.xChar = 0
  · obtain ⟨wakeup, sent | stopped⟩ := txChars_ring free found
    · rw [sent]
      exact found
    · rw [stopped]
      exact (stopTx_frame _).1.trans found
  · rw [txChars_xChar free found]

theorem startTx_eq (info : s.info = true) :
    ∃ depth on, s.ifxAscStartTx = Asc.ifxAscTxChars { s with depth, ascTxIrqOn := on } := by
  by_cases off : s.ascTxIrqOn = 0
  · refine ⟨s.depth - 1, s.ascTxIrqOn + 1, ?_⟩
    rw [ifxAscStartTx, if_pos off]
    exact if_pos info
  · refine ⟨s.depth, s.ascTxIrqOn, ?_⟩
    rw [ifxAscStartTx, if_neg off]
    exact if_pos info

theorem startTx_held (info : s.info = true) (held : s.head = s.tail ∨ s.stopped = true ∨ s.hwStopped = true) :
    s.ifxAscStartTx.xChar = s.xChar := by
  obtain ⟨depth, on, called⟩ := startTx_eq info
  have stopped := @txChars_held { s with depth, ascTxIrqOn := on } held
  rw [called, stopped]
  exact (stopTx_frame _).1

theorem startTx_clears (info : s.info = true) (free : ¬(s.head = s.tail ∨ s.stopped = true ∨ s.hwStopped = true)) :
    s.ifxAscStartTx.xChar = 0 := by
  obtain ⟨depth, on, called⟩ := startTx_eq info
  rw [called]
  exact txChars_clears free

theorem txChars_idle (none : s.xChar = 0) : s.ifxAscTxChars.xChar = 0 := by
  by_cases held : s.head = s.tail ∨ s.stopped = true ∨ s.hwStopped = true
  · rw [txChars_held held]
    exact (stopTx_frame s).1.trans none
  · exact txChars_clears held

/-! ### Runs -/

structure Sound (s : Asc) : Prop extends s.Flowing where
  none : s.xChar = 0

theorem Sound.transmitted (sound : s.Sound) : s.Transmitted := by
  refine ⟨sound.ring, ?_, ?_⟩
  · have xchars := sound.xchars
    rwa [waiting, if_pos sound.none, List.append_nil] at xchars
  · obtain ⟨enabled, on⟩ | ⟨disabled, off⟩ := sound.line
    · simp [irqEnabled, enabled, on]
    · simp [irqEnabled, disabled, off]

theorem step_sound (s : Asc) (e : AscEvent) (sound : s.Sound) (free : s.NotHeldUp e) : (s.step e).Sound := by
  cases e with
  | putChar ch =>
    refine ⟨sound.toFlowing.putChar ch, ?_⟩
    show (s.uartPutChar ch).xChar = 0
    unfold uartPutChar
    split <;> exact sound.none
  | sendXchar ch =>
    by_cases asked : ch = 0
    · subst asked
      have cleared : s.step (.sendXchar 0) = s := by
        show { s with xChar := 0 } = s
        rw [← sound.none]
      rw [cleared]
      exact sound
    · obtain ⟨filled, running, hwRunning⟩ := free asked
      have called : s.step (.sendXchar ch) = Asc.ifxAscStartTx { s with xChar := ch, asked := s.asked ++ [ch] } :=
        if_pos asked
      rw [called]
      refine ⟨(sound.toFlowing.ask sound.none asked).startTx, startTx_clears sound.info ?_⟩
      simp [filled, running, hwRunning]
  | startTx =>
    obtain ⟨depth, on, called⟩ := startTx_eq sound.info
    refine ⟨sound.toFlowing.startTx, ?_⟩
    show s.ifxAscStartTx.xChar = 0
    rw [called]
    exact txChars_idle sound.none
  | stopTx => exact ⟨sound.toFlowing.stopTx, (stopTx_frame s).1.trans sound.none⟩
  | setStopped stopped =>
    exact ⟨⟨sound.ring, sound.xchars, sound.head_small, sound.tail_small, sound.info, sound.line⟩, sound.none⟩
  | setHwStopped stopped =>
    exact ⟨⟨sound.ring, sound.xchars, sound.head_small, sound.tail_small, sound.info, sound.line⟩, sound.none⟩
  | txInt =>
    unfold step
    dsimp only
    split
    · exact ⟨sound.toFlowing.txChars, txChars_idle sound.none⟩
    · exact sound

/-- A character that is held up waits, so it has been asked for and not sent. -/
theorem held_up (s : Asc) (e : AscEvent) (sound : s.Sound) (held : ¬ s.NotHeldUp e) : ¬ (s.step e).Transmitted := by
  obtain ⟨found, blocked⟩ := Classical.not_imp.mp held
  have stuck : s.head = s.tail ∨ s.stopped = true ∨ s.hwStopped = true := by
    by_contra free
    simp only [not_or, Bool.not_eq_true] at free
    exact blocked free
  cases e with
  | sendXchar ch =>
    have asked : ch ≠ 0 := found
    have called : s.step (.sendXchar ch) = Asc.ifxAscStartTx { s with xChar := ch, asked := s.asked ++ [ch] } :=
      if_pos asked
    have flowing := (sound.toFlowing.ask sound.none asked).startTx
    have waits := @startTx_held { s with xChar := ch, asked := s.asked ++ [ch] } sound.info stuck
    rw [called]
    intro transmitted
    have xchars := flowing.xchars
    rw [transmitted.xchars, waiting, if_neg (by rw [waits]; exact asked)] at xchars
    simp at xchars
  | startTx => exact absurd sound.none found
  | txInt =>
    unfold finds at found
    dsimp only at found
    split at found
    · exact absurd sound.none found
    · exact absurd rfl found
  | putChar | stopTx | setStopped | setHwStopped => exact absurd rfl found

/-- A port after `ifx_asc_startup`, with the ring that `uart_startup` has emptied. -/
def started (buf : Nat → U8) : Asc where
  buf := buf

theorem started_sound (buf : Nat → U8) : (started buf).Sound := by
  refine ⟨⟨?_, rfl, Nat.zero_lt_succ _, Nat.zero_lt_succ _, rfl, .inr ⟨rfl, rfl⟩⟩, rfl⟩
  exact Ring.items_self

/-- What one event sends: never a byte of the ring when it finds a character that waits. -/
theorem txChars_sent (s : Asc) : ∃ out, s.ifxAscTxChars.sent = s.sent ++ out ∧ (s.xChar ≠ 0 → ∀ b, .ring b ∉ out) := by
  by_cases held : s.head = s.tail ∨ s.stopped = true ∨ s.hwStopped = true
  · refine ⟨[], ?_, fun _ b member => nomatch member⟩
    rw [txChars_held held, List.append_nil]
    exact (stopTx_frame s).2
  by_cases found : s.xChar = 0
  · refine ⟨[.ring (s.buf s.tail)], ?_, fun waits => absurd found waits⟩
    obtain ⟨wakeup, sent | stopped⟩ := txChars_ring held found
    · rw [sent]
      rfl
    · rw [stopped]
      exact (stopTx_frame _).2
  · refine ⟨[.xChar s.xChar], ?_, fun _ b member => by simp at member⟩
    rw [txChars_xChar held found]
    rfl

end Asc

/-- In the states of a run everything has been sent as it should exactly when no event finds a character of the flow
control while the ring is empty or the tty stopped; and the ring never overtakes such a character. -/
theorem asc_transmits_iff (buf : Nat → U8) (events : List AscEvent) :
    ((∀ before after, events = before ++ after → (exec Asc.step (Asc.started buf) before).Transmitted) ↔
      Guarded Asc.step Asc.NotHeldUp (Asc.started buf) events) ∧
    ∀ s : Asc, ∃ out, s.ifxAscTxChars.sent = s.sent ++ out ∧ (s.xChar ≠ 0 → ∀ b, .ring b ∉ out) :=
  ⟨always_iff_guarded Asc.step_sound (fun _ sound => sound.transmitted) Asc.held_up (Asc.started_sound buf),
    Asc.txChars_sent⟩

/-- XOFF on a port with an empty ring is not sent. -/
theorem xoff_not_sent : ¬ ∀ before after, [AscEvent.sendXchar 0x13] = before ++ after →
    (exec Asc.step (Asc.started fun _ => 0) before).Transmitted := by
  intro always
  have transmitted := always [.sendXchar 0x13] [] rfl
  exact absurd transmitted.xchars (by decide)

end TwinpassGateway.Serial
