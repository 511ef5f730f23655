import TwinpassGateway.Spi.SessionFraming

/-!
The management interface over the SSC: the ioctls `WESTELL_SPI_MDIO_READ` and `WESTELL_SPI_MDIO_WRITE` of
`danube_ppa_eth_d2.c`, and what a device at the other end of the wire makes of their sessions.
-/

namespace TwinpassGateway.Spi

open Foundation

/-! ### The ioctls -/

/-- `struct mii_ioctl_data` of a call. -/
structure MiiData where
  phyId : BitVec 16
  regNum : BitVec 16
  valIn : BitVec 16

inductive MdioCall where
  | read (data : MiiData)
  | write (data : MiiData)

def MdioCall.data : MdioCall → MiiData
  | .read data | .write data => data

def MdioCall.word : MdioCall → U32
  | .read data => 0x60000000#32 ||| (data.phyId.setWidth 32 <<< 23 ||| data.regNum.setWidth 32 <<< 18)
  | .write data =>
    0x50020000#32 ||| (data.phyId.setWidth 32 <<< 23 ||| data.regNum.setWidth 32 <<< 18 ||| data.valIn.setWidth 32)

/-- What the ioctl returns and puts into `val_out`, when its session has returned `ret` and read `readData`. -/
def MdioCall.outcome (call : MdioCall) (ret : Int) (readData : U32) : Int × Option (BitVec 16) :=
  match call with
  | .read _ =>
    let mdioRData := if ret < 0 then 0xffffffff#32 else readData
    if mdioRData = 0xffffffff#32 then (-14, none) else (0, some (mdioRData.setWidth 16))
  | .write _ => if ret = -1 then (-14, none) else (0, none)

/-! ### The device -/

inductive MdioOperation where
  | read (phy reg : Nat)
  | write (phy reg : Nat) (val : BitVec 16)
  deriving DecidableEq

/-- A management frame behind its preamble: a start of 01, the operation, the numbers, a turnaround and the data. -/
def mdioFrame (w : U32) : Option MdioOperation :=
  let phy := (w.extractLsb' 23 5).toNat
  let reg := (w.extractLsb' 18 5).toNat
  if w.extractLsb' 28 4 = 0b0110#4 then some (.read phy reg)
  else if w.extractLsb' 28 4 = 0b0101#4 ∧ w.extractLsb' 16 2 = 0b10#2 then some (.write phy reg (w.extractLsb' 0 16))
  else none

/-- A device takes a word for a frame when a preamble is directly in front of it. -/
def framesAfter (synchronised : Bool) : List TxEntry → List U32
  | [] => []
  | .word w :: rest =>
    if w = preamble then framesAfter true rest
    else if synchronised then w :: framesAfter false rest
    else framesAfter false rest
  | _ :: rest => framesAfter false rest

def deviceOperations (wire : List TxEntry) : List MdioOperation := (framesAfter false wire).filterMap mdioFrame

def MdioCall.operation : MdioCall → MdioOperation
  | .read data => .read data.phyId.toNat data.regNum.toNat
  | .write data => .write data.phyId.toNat data.regNum.toNat data.valIn

def MdioCall.InRange (call : MdioCall) : Prop := call.data.phyId.toNat < 32 ∧ call.data.regNum.toNat < 32

/-! ### Frames -/

section Frames

variable {head : U32} {phy reg val : BitVec 16}

def joined (head : U32) (phy reg val : BitVec 16) : U32 :=
  head ||| (phy.setWidth 32 <<< 23 ||| reg.setWidth 32 <<< 18 ||| val.setWidth 32)

theorem joined_bit (head : U32) (phy reg val : BitVec 16) {i : Nat} (below : i < 32) :
    (joined head phy reg val).getLsbD i = (head.getLsbD i || (decide (23 ≤ i) && phy.getLsbD (i - 23)) ||
      (decide (18 ≤ i) && reg.getLsbD (i - 18)) || val.getLsbD i) := by
  unfold joined
  simp only [BitVec.getLsbD_or, BitVec.getLsbD_shiftLeft, BitVec.getLsbD_setWidth]
  grind

theorem high_bit {x : BitVec 16} (small : x.toNat < 32) (i : Nat) : x.getLsbD (5 + i) = false := by
  apply Nat.testBit_lt_two_pow
  calc x.toNat < 2 ^ 5 := small
    _ ≤ 2 ^ (5 + i) := Nat.pow_le_pow_right (Nat.succ_pos 1) (Nat.le_add_right 5 i)

theorem val_bit (val : BitVec 16) (i : Nat) : val.getLsbD (16 + i) = false :=
  BitVec.getLsbD_of_ge val (16 + i) (Nat.le_add_right 16 i)

theorem joined_phy (small : reg.toNat < 32) (clear : ∀ i < 5, head.getLsbD (23 + i) = false) :
    (joined head phy reg val).extractLsb' 23 5 = phy.setWidth 5 := by
  apply BitVec.eq_of_getLsbD_eq
  intro i below
  have reg_high := high_bit small i
  have val_high := val_bit val (7 + i)
  rw [BitVec.getLsbD_extractLsb', joined_bit _ _ _ _ (by omega), clear i below, BitVec.getLsbD_setWidth]
  grind

theorem joined_reg (clear : ∀ i < 5, head.getLsbD (18 + i) = false) :
    (joined head phy reg val).extractLsb' 18 5 = reg.setWidth 5 := by
  apply BitVec.eq_of_getLsbD_eq
  intro i below
  have val_high := val_bit val (2 + i)
  rw [BitVec.getLsbD_extractLsb', joined_bit _ _ _ _ (by omega), clear i below, BitVec.getLsbD_setWidth]
  grind

theorem joined_operation (small : phy.toNat < 32) (small' : reg.toNat < 32) :
    (joined head phy reg val).extractLsb' 28 4 = head.extractLsb' 28 4 := by
  apply BitVec.eq_of_getLsbD_eq
  intro i below
  have phy_high := high_bit small i
  have reg_high := high_bit small' (5 + i)
  have val_high := val_bit val (12 + i)
  rw [BitVec.getLsbD_extractLsb', joined_bit _ _ _ _ (by omega), BitVec.getLsbD_extractLsb']
  grind

theorem joined_turnaround : (joined head phy reg val).extractLsb' 16 2 = head.extractLsb' 16 2 := by
  apply BitVec.eq_of_getLsbD_eq
  intro i below
  have val_high := val_bit val i
  rw [BitVec.getLsbD_extractLsb', joined_bit _ _ _ _ (by omega), BitVec.getLsbD_extractLsb']
  grind

theorem joined_val (clear : ∀ i < 16, head.getLsbD i = false) : (joined head phy reg val).extractLsb' 0 16 = val := by
  apply BitVec.eq_of_getLsbD_eq
  intro i below
  have head_clear := clear i below
  rw [BitVec.getLsbD_extractLsb', joined_bit _ _ _ _ (by omega)]
  grind

theorem toNat_five {x : BitVec 16} (small : x.toNat < 32) : (x.setWidth 5).toNat = x.toNat := by
  rw [BitVec.toNat_setWidth, Nat.mod_eq_of_lt small]

theorem mdioFrame_numbers {w : U32} {operation : MdioOperation} (known : mdioFrame w = some operation) :
    (∃ phy < 32, ∃ reg < 32, operation = .read phy reg) ∨ ∃ phy < 32, ∃ reg < 32, ∃ val, operation = .write phy reg val := by
  unfold mdioFrame at known
  dsimp only at known
  split at known
  · cases known
    exact .inl ⟨_, BitVec.isLt _, _, BitVec.isLt _, rfl⟩
  · split at known
    · cases known
      exact .inr ⟨_, BitVec.isLt _, _, BitVec.isLt _, _, rfl⟩
    · cases known

/-- A device makes of the word of a call what the call asks for, exactly when the numbers have five bits. -/
theorem mdioFrame_word_iff (call : MdioCall) : mdioFrame call.word = some call.operation ↔ call.InRange := by
  constructor
  · intro known
    rcases mdioFrame_numbers known with ⟨phy, small, reg, small', same⟩ | ⟨phy, small, reg, small', val, same⟩
    · cases call with
      | read data =>
        obtain ⟨rfl, rfl⟩ := MdioOperation.read.inj same
        exact ⟨small, small'⟩
      | write data => cases same
    · cases call with
      | read data => cases same
      | write data =>
        obtain ⟨rfl, rfl, rfl⟩ := MdioOperation.write.inj same
        exact ⟨small, small'⟩
  · rintro ⟨small, small'⟩
    cases call with
    | read data =>
      change data.phyId.toNat < 32 at small
      change data.regNum.toNat < 32 at small'
      have word : (MdioCall.read data).word = joined 0x60000000#32 data.phyId data.regNum 0#16 := by
        unfold joined
        rw [show (0#16).setWidth 32 = 0#32 from rfl, BitVec.or_zero]
        rfl
      unfold mdioFrame
      rw [word, joined_operation small small', if_pos (by decide), joined_phy small' (by decide), joined_reg (by decide),
        toNat_five small, toNat_five small']
      rfl
    | write data =>
      change data.phyId.toNat < 32 at small
      change data.regNum.toNat < 32 at small'
      have word : (MdioCall.write data).word = joined 0x50020000#32 data.phyId data.regNum data.valIn := rfl
      unfold mdioFrame
      rw [word, joined_operation small small', if_neg (by decide), joined_turnaround, if_pos (by decide),
        joined_phy small' (by decide), joined_reg (by decide), joined_val (by decide), toNat_five small, toNat_five small']
      rfl

end Frames

/-! ### Results -/

section Results

variable {session : SscSession} (told : session.Told) (data : MiiData) (readData : U32)

include told

/-- A read that is refused reports it, and so does one that reads nothing but ones. -/
theorem read_outcome : (MdioCall.read data).outcome session.ret readData =
    if session.ret = 4 ∧ readData ≠ 0xffffffff#32 then (0, some (readData.setWidth 16)) else (-14, none) := by
  unfold MdioCall.outcome
  rcases told with ⟨done, _⟩ | ⟨refused, _⟩
  · rw [done]
    by_cases ones : readData = 0xffffffff#32
    · rw [ones]
      rfl
    · exact (if_neg ones).trans (if_pos ⟨rfl, ones⟩).symm
  · rw [refused]
    rfl

/-- A write reports success, also when it is refused. -/
theorem write_outcome : (MdioCall.write data).outcome session.ret readData = (0, none) := by
  unfold MdioCall.outcome
  apply if_neg
  rcases told with ⟨done, _⟩ | ⟨refused, _⟩
  · rw [done]
    decide
  · rw [refused]
    decide

end Results

/-! ### Runs -/

namespace Ssc

variable {b : LocalBufs} {s : Ssc}

def performed (s : Ssc) : List U32 :=
  (s.sessions.filter fun session => session.ret = 4).map SscSession.command ++
    if s.handed = [preamble, s.command] then [s.command] else []

theorem framesAfter_preamble (synchronised : Bool) (rest : List TxEntry) :
    framesAfter synchronised (.word preamble :: rest) = framesAfter true rest := by
  rw [framesAfter, if_pos rfl]

theorem framesAfter_command {command : U32} (frame : command ≠ preamble) (rest : List TxEntry) :
    framesAfter true (.word command :: rest) = command :: framesAfter false rest := by
  rw [framesAfter, if_neg frame, if_pos rfl]

theorem begun_cases {command : U32} {handed : List U32} (begun : handed <+: [preamble, command]) :
    handed = [] ∨ handed = [preamble] ∨ handed = [preamble, command] := by
  have known := (List.prefix_iff_eq_take).mp begun
  have few : handed.length ≤ 2 := begun.length_le
  rcases Nat.le_iff_lt_or_eq.mp few with fewer | two
  · rcases Nat.lt_succ_iff_lt_or_eq.mp fewer with none | one
    · exact .inl (List.length_eq_zero_iff.mp (Nat.lt_one_iff.mp none))
    · rw [one] at known
      exact .inr (.inl known)
  · rw [two] at known
    exact .inr (.inr known)

theorem framesAfter_handed (synchronised : Bool) {command : U32} (frame : command ≠ preamble) {handed : List U32}
    (begun : handed <+: [preamble, command]) :
    framesAfter synchronised (handed.map .word) = if handed = [preamble, command] then [command] else [] := by
  rcases begun_cases begun with rfl | rfl | rfl
  · rw [if_neg (by simp)]
    rfl
  · rw [if_neg (by simp)]
    exact framesAfter_preamble synchronised []
  · rw [if_pos rfl]
    exact (framesAfter_preamble synchronised _).trans (framesAfter_command frame [])

/-- By induction on the sessions: each one that was refused leaves the device as it found it, or synchronised. -/
theorem framesAfter_sessions (synchronised : Bool) {sessions : List SscSession} (told : ∀ session ∈ sessions, session.Told)
    (frames : ∀ session ∈ sessions, session.command ≠ preamble) {command : U32} (frame : command ≠ preamble)
    {handed : List U32} (begun : handed <+: [preamble, command]) :
    framesAfter synchronised ((sessions.flatMap SscSession.handed ++ handed).map .word) =
      (sessions.filter fun session => session.ret = 4).map SscSession.command ++
        if handed = [preamble, command] then [command] else [] := by
  induction sessions generalizing synchronised with
  | nil => exact framesAfter_handed synchronised frame begun
  | cons session rest ih =>
    have later := fun c => ih c (fun other member => told other (List.mem_cons_of_mem _ member))
      fun other member => frames other (List.mem_cons_of_mem _ member)
    rw [List.flatMap_cons, List.append_assoc, List.map_append]
    rcases told session List.mem_cons_self with ⟨done, whole⟩ | ⟨refused, few⟩
    · rw [whole, List.filter_cons_of_pos (by simp [done])]
      have own : session.command ≠ preamble := frames session List.mem_cons_self
      exact (framesAfter_preamble synchronised _).trans ((framesAfter_command own _).trans
        (congrArg (session.command :: ·) (later false)))
    · rw [List.filter_cons_of_neg (by simp [refused])]
      have short : session.handed <+: [preamble, command] := few.trans (List.prefix_append [preamble] [command])
      rcases begun_cases short with none | one | two
      · rw [none]
        exact later synchronised
      · rw [one]
        exact (framesAfter_preamble synchronised _).trans (later true)
      · rw [two] at few
        exact absurd few.length_le (Nat.not_succ_le_self 1)

/-- What a statement does to the sessions: it goes on with the one that is under way, or ends it. -/
structure Keeps (s s' : Ssc) : Prop where
  command : s'.command = s.command
  sessions : s'.sessions = s.sessions ∨ ∃ handed ret, s'.sessions = s.sessions ++ [⟨s.command, handed, ret⟩]

theorem keeps_of_same {s' : Ssc} (command : s'.command = s.command) (sessions : s'.sessions = s.sessions) : Keeps s s' :=
  ⟨command, .inl sessions⟩

theorem keeps_finish {s' : Ssc} (command : s'.command = s.command) (sessions : s'.sessions = s.sessions) (ret : Int) :
    Keeps s (s'.finish ret) := by
  refine ⟨command, .inr ⟨s'.handed, ret, ?_⟩⟩
  unfold finish
  rw [sessions, command]

theorem keeps_awaitMode (s : Ssc) (mode : Mode) (tmp : Nat) (busy : Bool) (again : Nat → SscAt) (next : SscAt) :
    Keeps s (s.awaitMode mode tmp busy again next) := by
  unfold awaitMode
  split
  · exact keeps_of_same rfl rfl
  · split
    · split
      · exact keeps_finish rfl rfl _
      · exact keeps_of_same rfl rfl
    · exact keeps_of_same rfl rfl

theorem next_keeps (b : LocalBufs) (s : Ssc) (e : Surroundings) : Keeps s (s.next b e) := by
  unfold Ssc.next
  cases s.place with
  | setTx tmp => exact keeps_awaitMode s _ _ _ _ _
  | setRxtx tmp => exact keeps_awaitMode s _ _ _ _ _
  | awaitIdle busycount =>
    dsimp only
    split
    · split
      · exact keeps_finish rfl rfl _
      · exact keeps_of_same rfl rfl
    · exact keeps_of_same rfl rfl
  | awaitBuffer busycount =>
    dsimp only
    split
    · exact keeps_of_same rfl rfl
    · split
      · exact keeps_finish rfl rfl _
      · exact keeps_of_same rfl rfl
  | writeCommand =>
    dsimp only
    split
    · exact keeps_of_same rfl rfl
    · apply keeps_finish
      · rfl
      · rfl
  | kread =>
    dsimp only
    split
    · exact keeps_finish rfl rfl _
    · exact keeps_of_same rfl rfl
  | poll =>
    dsimp only
    split
    · split
      · exact keeps_of_same rfl rfl
      · exact keeps_of_same rfl rfl
    · apply keeps_finish
      · rfl
      · rfl
  | look =>
    dsimp only
    split
    · exact keeps_of_same rfl rfl
    · exact keeps_of_same rfl rfl
  | _ => exact keeps_of_same rfl rfl

/-- Every command that was called for is the word of a management call. -/
structure Managed (s : Ssc) : Prop where
  past : ∀ session ∈ s.sessions, ∃ call : MdioCall, call.InRange ∧ session.command = call.word
  current : s.place = .returned ∨ ∃ call : MdioCall, call.InRange ∧ s.command = call.word

end Ssc

def SscEvent.ForCall : SscEvent → Prop
  | .call command _ => ∃ call : MdioCall, call.InRange ∧ command = call.word
  | _ => True

namespace Ssc

variable {b : LocalBufs} {s : Ssc}

theorem Managed.step (managed : Managed s) (e : SscEvent) (forCall : e.ForCall) : Managed (s.step b e) := by
  cases e with
  | call command reply =>
    unfold Ssc.step
    dsimp only
    split
    · exact ⟨managed.past, .inr forCall⟩
    · exact managed
  | txInterrupt r =>
    unfold Ssc.step
    dsimp only
    split
    · exact ⟨managed.past, managed.current⟩
    · exact managed
  | next e =>
    show Managed (s.next b e)
    obtain ⟨command, sessions⟩ := next_keeps b s e
    rcases managed.current with returned | running
    · have same : s.next b e = s := by
        unfold Ssc.next
        rw [returned]
      rw [same]
      exact managed
    · constructor
      · intro session member
        rcases sessions with same | ⟨handed, ret, longer⟩
        · exact managed.past session (same ▸ member)
        · rw [longer] at member
          rcases List.mem_append.mp member with earlier | last
          · exact managed.past session earlier
          · rw [List.mem_singleton.mp last]
            exact running
      · right
        rw [command]
        exact running

theorem word_not_preamble {call : MdioCall} (inRange : call.InRange) : call.word ≠ preamble := by
  intro same
  have known := (mdioFrame_word_iff call).mpr inRange
  rw [same, show mdioFrame preamble = none by decide] at known
  cases known

/-- The commands that have been taken whole are words of calls. -/
theorem Managed.performed (managed : Managed s) (progress : Progress b s) :
    ∀ command ∈ s.performed, ∃ call : MdioCall, call.InRange ∧ command = call.word := by
  intro command member
  rcases List.mem_append.mp member with past | current
  · obtain ⟨session, kept, rfl⟩ := List.mem_map.mp past
    exact managed.past session (List.mem_of_mem_filter kept)
  · split at current
    · rename_i whole
      rw [List.mem_singleton.mp current]
      rcases managed.current with returned | running
      · unfold Progress at progress
        rw [returned] at progress
        have none : s.handed = [] := progress
        rw [none] at whole
        cases whole
      · exact running
    · cases current

theorem operations_of_words {commands : List U32}
    (managed : ∀ command ∈ commands, ∃ call : MdioCall, call.InRange ∧ command = call.word) :
    ∃ calls : List MdioCall, commands = calls.map MdioCall.word ∧
      commands.filterMap mdioFrame = calls.map MdioCall.operation := by
  induction commands with
  | nil => exact ⟨[], rfl, rfl⟩
  | cons command rest ih =>
    obtain ⟨call, inRange, rfl⟩ := managed command List.mem_cons_self
    obtain ⟨calls, words, operations⟩ := ih fun other member => managed other (List.mem_cons_of_mem _ member)
    refine ⟨call :: calls, ?_, ?_⟩
    · rw [words]
      rfl
    · rw [List.filterMap_cons_some ((mdioFrame_word_iff call).mpr inRange), operations]
      rfl

/-- A device takes for frames the commands that have been taken whole. -/
theorem frames_performed (sound : Sound b s) (managed : Managed s) :
    framesAfter false (s.wire ++ s.pending b) = s.performed := by
  have frames : ∀ session ∈ s.sessions, session.command ≠ preamble := by
    intro session member
    obtain ⟨call, inRange, word⟩ := managed.past session member
    rw [word]
    exact word_not_preamble inRange
  unfold performed
  rw [sound.conserved.custody]
  rcases managed.current with returned | ⟨call, inRange, word⟩
  · have progress := sound.progress
    unfold Progress at progress
    rw [returned] at progress
    have none : s.handed = [] := progress
    unfold words
    rw [none, if_neg (by simp)]
    have zero : 0#32 ≠ preamble := by decide
    have known := framesAfter_sessions false sound.told frames zero List.nil_prefix
    rw [if_neg (by simp)] at known
    exact known
  · apply framesAfter_sessions false sound.told frames
    · rw [word]
      exact word_not_preamble inRange
    · exact sound.progress.begun

/-- In a run of management calls in which what was taken goes out unchanged, the device performs what was asked for by the
calls whose sessions report success, in their order, and nothing else. -/
theorem operations_performed (b : LocalBufs) (txMem : U32 → U8) (rx : RxPort) (events : List SscEvent)
    (guarded : Guarded (step b) Allowed (opened txMem rx) events) (forCalls : ∀ e ∈ events, e.ForCall) :
    ∃ calls : List MdioCall,
      (exec (step b) (opened txMem rx) events).performed = calls.map MdioCall.word ∧
      deviceOperations ((exec (step b) (opened txMem rx) events).wire ++ (exec (step b) (opened txMem rx) events).pending b) =
        calls.map MdioCall.operation := by
  have sound : Sound b (exec (step b) (opened txMem rx) events) :=
    guarded_invariant (fun s e (sound : Sound b s) allowed => sound.step e allowed) (opened_sound b txMem rx) guarded
  have managed : Managed (exec (step b) (opened txMem rx) events) :=
    exec_invariant (fun s e (managed : Managed s) forCall => managed.step e forCall)
      ⟨fun _ none => absurd none List.not_mem_nil, .inl rfl⟩ forCalls
  obtain ⟨calls, words, operations⟩ := operations_of_words (managed.performed sound.progress)
  refine ⟨calls, words, ?_⟩
  unfold deviceOperations
  rw [frames_performed sound managed]
  exact operations

def sampleBufs : LocalBufs :=
  ⟨⟨0x80000000#32, 4, by decide, by decide⟩, ⟨0x80001000#32, 4, by decide, by decide⟩, by decide, rfl, rfl⟩

def samplePort : Ssc := opened (fun _ => 0#8) ⟨fun _ => 0#8, 0#32, 0#32, 0#32, .rxtx, false, false, [], 0⟩

def roomy : TxReading := ⟨0x04000000#32, 0#32⟩

def full : TxReading := ⟨0x04000000#32, 0x400#32⟩

def reading (busy : Bool) (tx : TxReading) : SscEvent := .next ⟨busy, tx, ⟨0#32, 0, 0#32⟩⟩

def sampleRead : MdioCall := .read ⟨1#16, 2#16, 0#16⟩

def sampleWrite : MdioCall := .write ⟨1#16, 2#16, 3#16⟩

/-- A read whose session finds the port busy behind its preamble; and a write whose preamble finds the FIFO full and is sent
by the interrupt. -/
def twoCalls : List SscEvent :=
  .call sampleRead.word (some fun _ => ⟨0#32, 0⟩) :: List.replicate 5 (reading false roomy) ++
    List.replicate 20 (reading true roomy) ++
  .call sampleWrite.word none :: List.replicate 5 (reading false full) ++
    .txInterrupt roomy :: List.replicate 2 (reading false roomy)

theorem twoCalls_forCalls : ∀ e ∈ twoCalls, e.ForCall := by
  intro e member
  unfold twoCalls at member
  simp only [List.mem_append, List.mem_cons, List.mem_replicate, List.cons_append] at member
  obtain rfl | ((⟨-, rfl⟩ | ⟨-, rfl⟩) | rfl | ⟨-, rfl⟩) | rfl | ⟨-, rfl⟩ := member
  · exact ⟨sampleRead, ⟨by decide, by decide⟩, rfl⟩
  · trivial
  · trivial
  · exact ⟨sampleWrite, ⟨by decide, by decide⟩, rfl⟩
  · trivial
  · trivial
  · trivial

/-- The refused read leaves a preamble, and the device writes what it is asked to. -/
theorem operations_performed_write :
    let s := exec (step sampleBufs) samplePort twoCalls
    s.sessions.map SscSession.ret = [-16, 4] ∧
    ∃ calls : List MdioCall, s.performed = calls.map MdioCall.word ∧
      deviceOperations (s.wire ++ s.pending sampleBufs) = calls.map MdioCall.operation :=
  ⟨by decide, operations_performed sampleBufs _ _ twoCalls (by decide) twoCalls_forCalls⟩

end Ssc

end TwinpassGateway.Spi
